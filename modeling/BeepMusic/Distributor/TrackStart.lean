import BeepMusic.Distributor.Playback

/-!
When the play thread's `PLAY_EVENT_TRACK_STARTED`s are those of the tracks that
started. The thread has one slot for the `track_info` of the next event and
compares its own count of tracks with that of one player, so a track must not be
announced before the one before it has been reported, and the players must not
start counting anew later than in the first track.
-/

namespace BeepMusic.Distributor

open Lib List Option

namespace PlayThread

variable {τ : Type}

/-- What the reports of started tracks depend on. -/
structure Tracks (τ : Type) where
  players : PlayerSet
  number : ℤ
  pending : Option τ
  infos : List (Option τ)

variable (s : PlayThread τ)

def tracks : Tracks τ :=
  ⟨s.players, s.numTracksStarted, s.pendingTrackInfo, s.startedInfos⟩

/-- A player has reported that it has started `count` tracks. -/
def Tracks.report (t : Tracks τ) (count : ℤ) : Tracks τ :=
  if count = t.number + 1 then
    { t with number := t.number + 1, pending := none, infos := t.infos ++ [t.pending] }
  else t

/-- A stream event has been taken. -/
def Tracks.take (t : Tracks τ) : StreamEvent τ → Tracks τ
  | .acquireDone => { t with number := 0, pending := none }
  | .trackBegin _ trackInfo _ => { t with pending := trackInfo }
  | _ => t

theorem tracks_sendPlayEvent {e : PlayEvent τ} (he : e.started = none) :
    (s.sendPlayEvent e).tracks = s.tracks := by
  simp [tracks, startedInfos, sendPlayEvent, filterMap_append, he]

theorem tracks_handleStreamEvent (e : StreamEvent τ) :
    (s.handleStreamEvent e).tracks = s.tracks.take e := by
  cases e with
  | acquireDone =>
    simp only [handleStreamEvent]
    split <;> rfl
  | waitingForAcquire | acquireStarted | trackBegin | trackEnd | flush | buffer | rebuffer => rfl

section PlayerStates

variable (view : Player → PlayerView) (player1 : Player) (s : PlayThread τ)

theorem tracks_autostart : (s.autostart view).tracks = s.tracks := by
  rw [autostart]
  split <;> rfl

theorem tracks_startPlaying : (s.startPlaying view).tracks = s.tracks := by
  rw [startPlaying]
  split
  · dsimp only
    split
    · rfl
    · exact tracks_sendPlayEvent (s.updateAudioState .playing) rfl
  · rfl

theorem tracks_reportDuration : (s.reportDuration view player1).tracks = s.tracks := by
  rw [reportDuration]
  split
  · exact tracks_sendPlayEvent s rfl
  · rfl

theorem tracks_reportTrackStarted :
    (s.reportTrackStarted view player1).tracks =
      s.tracks.report (view player1).state.numTracksStarted := by
  have hnumber : s.tracks.number = s.numTracksStarted := rfl
  simp only [reportTrackStarted, Tracks.report, hnumber]
  split_ifs with hlt heq
  · simp [tracks, startedInfos, sendPlayEvent, filterMap_append, PlayEvent.started]
  · rfl
  · omega
  · rfl

theorem tracks_handleUnderflow : (s.handleUnderflow view player1).tracks = s.tracks := by
  rw [handleUnderflow]
  split
  · rfl
  · rw [endOfTrack]
    split
    · exact tracks_sendPlayEvent { s with didSendAudioEnded := true } rfl
    · rfl
  · rw [catchUp]
    split <;> rfl

/-- The counter of one player decides, if all players match. -/
theorem tracks_handlePlayerStates (matched : List String) :
    (s.handlePlayerStates view matched).tracks =
      (s.heard matched).elim s.tracks fun p =>
        s.tracks.report (view p).state.numTracksStarted := by
  simp only [handlePlayerStates, heard]
  cases hmatch : s.players.isSubsetOf matched with
  | false => rfl
  | true =>
    simp only [Bool.true_eq_false, if_false, if_true]
    cases hplayers : s.players.players with
    | nil => rfl
    | cons player1 rest =>
      simp only [head?_cons, elim_some]
      have hreport : ((({ s with missedCookieCount := 0 }.autostart view).startPlaying
          view).reportDuration view player1 |>.reportTrackStarted view player1).tracks =
            s.tracks.report (view player1).state.numTracksStarted := by
        rw [tracks_reportTrackStarted, tracks_reportDuration, tracks_startPlaying,
          tracks_autostart]
        rfl
      split
      · exact hreport
      · rw [tracks_handleUnderflow]
        exact hreport

end PlayerStates

theorem tracks_handleCommand (app : Option String) (stale : Bool)
    (c : PlayCommand) : (s.handleCommand app stale c).tracks = s.tracks := by
  cases c with
  | pause | resume =>
    simp only [handleCommand]
    split <;> rfl
  | appPause =>
    simp only [handleCommand, appPause]
    split
    · split <;> rfl
    · rfl
  | appResume =>
    simp only [handleCommand, appResume]
    repeat' split
    all_goals rfl

/-- Other inputs change at most the set of players. -/
theorem tracks_step_other {s s' : PlayThread τ} {input : PlayInput τ}
    (hother : input.isOther = true) (h : s.step input = some s') :
    s'.tracks = s.tracks ∨
      ∃ ps, input = .players ps ∧ s'.tracks = { s.tracks with players := ps } := by
  obtain ⟨-, h⟩ := ite_none_left_eq_some.mp h
  cases input with try cases h
  | players ps => exact .inr ⟨ps, rfl, rfl⟩
  | playerStates | streamEvent => simp [PlayInput.isOther] at hother
  | command app stale =>
    simp only at h
    split at h
    · cases h
    · cases h
      exact .inl (tracks_handleCommand _ app stale _)
  | debug | putCommand | stop => exact .inl rfl
  | endTimer =>
    obtain ⟨-, rfl⟩ := ite_some_none_eq_some.mp h
    simp only [endTimerExpires]
    split <;> exact .inl rfl
  | revertTimer =>
    obtain ⟨-, rfl⟩ := ite_some_none_eq_some.mp h
    exact .inl rfl

end PlayThread

namespace Playback

variable {τ : Type}

/-- The events that the play thread has to take before it knows of all tracks. -/
def waiting (s : Playback τ) : List (StreamEvent τ) := s.eventCh.filter StreamEvent.isMark

/-- The events are those of the tracks that started: no `assert` has failed, the
events carry the `track_info`s in order, there are never more of them than tracks
that started, and as many once the play thread has caught up. -/
structure TracksReported (s : Playback τ) : Prop where
  asserts : s.assertFailed = false
  infos : s.infos <+: s.taken
  atMost : s.infos.length ≤ (s.started s.acquiresTaken).length
  all : s.caughtUp = true → s.infos.length = (s.started s.acquiresTaken).length
  closed : ∀ a ∈ s.closed, a.infos <+: a.taken ∧ a.infos.length = a.started.length

/-- Tracks start one at a time. A track is announced when all players have counted
the tracks before it and these have been reported; players are stopped for a
rebuffer, or join, in the first track of an acquire only; a report is handled
before the players stop, after the events put before it; and the next acquire waits
for the report of the last start. -/
def Paced (s : Playback τ) : PlaybackInput τ → Prop
  | .announce _ _ _ =>
    s.waiting = [] ∧ s.infos.length = s.announced ∧
      ∀ p ∈ s.play.players.players, (s.deck p).counter = s.announced
  | .rebuffer => s.announced ≤ 1
  | .play (.players ps) => s.announced ≤ 1 ∨ ∀ p ∈ ps.players, p ∈ s.play.players.players
  | .states _ _ pick =>
    s.waiting = [] ∧ ∀ p ∈ s.play.players.players, (pick p).epoch = s.epoch
  | .acquire _ => s.waiting = [] ∧ s.caughtUp = true
  | _ => True

instance (s : Playback τ) (input : PlaybackInput τ) : Decidable (s.Paced input) :=
  match input with
  | .announce _ _ _ => inferInstanceAs (Decidable (_ ∧ _))
  | .rebuffer => inferInstanceAs (Decidable (_ ≤ _))
  | .play (.players _) => inferInstanceAs (Decidable (_ ∨ _))
  | .states _ _ _ | .acquire _ => inferInstanceAs (Decidable (_ ∧ _))
  | .sendTrack | .event _ | .decode _ | .skip _ | .playSample _ | .flush _ | .poll _
  | .takeEvent | .play (.playerStates _ _) | .play (.command _ _) | .play (.streamEvent _)
  | .play .debug | .play .endTimer | .play .revertTimer | .play (.putCommand _)
  | .play (.stop _) =>
    .isTrue trivial

/-- How far the play thread is behind the stream thread. -/
inductive Stage (s : Playback τ) : Prop
  | settled (hwaiting : s.waiting = []) (hacquires : s.acquires = s.acquiresTaken)
      (hannounced : s.announced = s.taken.length)
  | beginning (contentLength : ℤ) (trackInfo : Option τ) (audioType : String)
      (hwaiting : s.waiting = [.trackBegin contentLength trackInfo audioType])
      (hacquires : s.acquires = s.acquiresTaken) (htaken : s.taken = s.infos)
      (hannounced : s.announced = s.taken.length + 1)
  | acquiring (hwaiting : s.waiting = [.acquireDone])
      (hacquires : s.acquires = s.acquiresTaken + 1) (hannounced : s.announced = 0)
      (hstarted : s.started s.acquires = []) (hcaughtUp : s.caughtUp = true)

/-- The player can be heard, or might join. -/
def Counts (s : Playback τ) (p : Player) : Prop :=
  s.announced ≤ 1 ∨ p ∈ s.play.tracks.players.players

/-- All starts of the player have been counted, and only the last track announced
may be missing. -/
structure InStep (d : Deck) (announced : ℕ) : Prop where
  counter : d.counter = d.played.length
  played : d.played = List.range d.played.length
  announced : announced ≤ d.played.length + 1

structure Tracked (s : Playback τ) : Prop where
  number : s.play.tracks.number = s.infos.length
  mark : s.mark ≤ s.play.tracks.infos.length
  pending : s.taken = s.infos ∨ s.taken = s.infos ++ [s.play.tracks.pending]
  stage : s.Stage
  sent : s.sent ≤ s.announced
  order : ∀ p, List.Sublist
    ((s.deck p).played ++ ((s.deck p).decoded ++ (s.deck p).toStart)) (List.range s.sent)
  inStep : ∀ p, s.Counts p → InStep (s.deck p) s.announced
  starts : s.started s.acquires = List.range (s.started s.acquires).length
  played : ∀ p, (s.deck p).played ⊆ s.started s.acquires
  ahead : s.announced ≤ (s.started s.acquires).length + 1
  fresh : ∀ j, s.acquires < j → s.started j = []
  epochs : ∀ p, ∀ r ∈ s.samples p, r.epoch ≤ s.epoch
  samples : ∀ p, ∀ r ∈ s.samples p, r.epoch = s.epoch → s.Counts p →
    r.count ≤ (s.deck p).counter ∧ r.last = (List.range r.count).getLast?
  reported : s.TracksReported

theorem tracked_init : (init : Playback τ).Tracked where
  number := rfl
  mark := Nat.le_refl _
  pending := .inl rfl
  stage := .settled rfl rfl rfl
  sent := Nat.le_refl _
  order _ := List.Sublist.refl _
  inStep _ _ := ⟨rfl, rfl, Nat.zero_le _⟩
  starts := rfl
  played _ := List.Subset.refl _
  ahead := Nat.zero_le _
  fresh _ _ := rfl
  epochs _ _ hr := absurd hr not_mem_nil
  samples _ _ hr := absurd hr not_mem_nil
  reported := ⟨rfl, prefix_refl _, Nat.le_refl _, fun _ => rfl, by simp [init]⟩

section Step

variable {s : Playback τ}

/-- What the stage depends on besides the events. -/
def ledger (s : Playback τ) : ℕ × ℕ × ℕ × List (Option τ) × List (Option τ) × (ℕ → List ℕ) × Bool :=
  (s.acquires, s.acquiresTaken, s.announced, s.taken, s.infos, s.started, s.caughtUp)

variable {s' : Playback τ} {p : Player} {e : StreamEvent τ} {i : ℕ} {rest : List (StreamEvent τ)}
  {play : PlayThread τ} {matched : List String} {input : PlaybackInput τ}

theorem Stage.congr (h : s.Stage) (hwaiting : s'.waiting = s.waiting)
    (hledger : s'.ledger = s.ledger) : s'.Stage := by
  simp only [ledger, Prod.mk.injEq] at hledger
  obtain ⟨hacquires, htaken, hannounced, htracks, hinfos, hstarted, hcaughtUp⟩ := hledger
  cases h with
  | settled hnone hsame hlength =>
    exact .settled (hwaiting.trans hnone) (by omega) (by rw [hannounced, hlength, htracks])
  | beginning contentLength trackInfo audioType hone hsame hall hlength =>
    exact .beginning contentLength trackInfo audioType (hwaiting.trans hone) (by omega)
      (by rw [htracks, hall, hinfos]) (by rw [hannounced, hlength, htracks])
  | acquiring hone hnext hzero hempty hup =>
    exact .acquiring (hwaiting.trans hone) (by omega) (by omega)
      (by rw [hacquires, hstarted, hempty]) (hcaughtUp.trans hup)

theorem Counts.of_players (h : s'.Counts p) (hannounced : s'.announced = s.announced)
    (hplayers : s'.play.tracks.players = s.play.tracks.players) : s.Counts p := by
  rcases h with hfirst | hp
  · exact .inl (hannounced ▸ hfirst)
  · exact .inr (hplayers ▸ hp)

section

variable (h : s.Tracked)
include h

theorem Tracked.of_waiting {eventCh : List (StreamEvent τ)}
    (hwaiting : eventCh.filter StreamEvent.isMark = s.waiting) :
    { s with eventCh := eventCh }.Tracked :=
  { h with
    stage := h.stage.congr hwaiting rfl
    reported := { h.reported with } }

theorem Tracked.putEvent (he : e.isMark = false) : { s with eventCh := s.eventCh ++ [e] }.Tracked :=
  h.of_waiting (by simp [waiting, filter_append, he])

/-- No track is taken twice or late. -/
theorem Tracked.settled (hwaiting : s.waiting = []) :
    s.acquires = s.acquiresTaken ∧ s.announced = s.taken.length := by
  cases h.stage with
  | settled _ hacquires hannounced => exact ⟨hacquires, hannounced⟩
  | beginning _ _ _ hone | acquiring hone => simp [hwaiting] at hone

theorem Tracked.length_taken : s.taken.length ≤ s.infos.length + 1 := by
  rcases h.pending with heq | heq <;> simp [heq]

theorem Tracked.announce (contentLength : ℤ) (trackInfo : Option τ) (audioType : String)
    (hwaiting : s.waiting = []) (hinfos : s.infos.length = s.announced)
    (hcounter : ∀ p ∈ s.play.players.players, (s.deck p).counter = s.announced) :
    (s.announce contentLength trackInfo audioType).Tracked := by
  obtain ⟨hacquires, hannounced⟩ := h.settled hwaiting
  have htaken : s.taken = s.infos := by
    rcases h.pending with heq | heq
    · exact heq
    · have hlength := congrArg List.length heq
      simp only [length_append, length_singleton] at hlength
      omega
  have hstarts : s.announced ≤ (s.started s.acquires).length := by
    rw [hacquires, ← hinfos]
    exact h.reported.atMost
  -- a player that counts has started all tracks announced so far
  have hcounts : ∀ p, (s.announce contentLength trackInfo audioType).Counts p →
      s.Counts p ∧ s.announced ≤ (s.deck p).counter := by
    rintro p (hfirst | hp)
    · have hzero : s.announced + 1 ≤ 1 := hfirst
      exact ⟨.inl (by omega), by omega⟩
    · exact ⟨.inr hp, (hcounter p hp).ge⟩
  exact
    { h with
      stage := .beginning contentLength trackInfo audioType
        (by
          have hnone : s.eventCh.filter StreamEvent.isMark = [] := hwaiting
          simp [waiting, Playback.announce, filter_append, hnone, StreamEvent.isMark])
        hacquires htaken (congrArg (· + 1) hannounced)
      sent := Nat.le_succ_of_le h.sent
      inStep := by
        intro p hp
        obtain ⟨hold, hle⟩ := hcounts p hp
        have hdeck := h.inStep p hold
        exact ⟨hdeck.counter, hdeck.played, Nat.succ_le_succ (hdeck.counter ▸ hle)⟩
      ahead := Nat.succ_le_succ hstarts
      samples := fun p r hr hepoch hp => h.samples p r hr hepoch (hcounts p hp).1
      reported := { h.reported with } }

theorem Tracked.sendTrack (hsent : s.sent < s.announced) : s.sendTrack.Tracked :=
  { h with
    stage := h.stage.congr rfl rfl
    sent := hsent
    order := by
      intro p
      have hmore := (h.order p).append (List.Sublist.refl [s.sent])
      rw [← range_succ] at hmore
      simpa [Playback.sendTrack] using hmore
    inStep := fun p hp => { h.inStep p hp with }
    reported := { h.reported with } }

theorem Tracked.stopAll {toStart : List ℕ} (hfirst : s.announced ≤ 1)
    (horder : toStart.Sublist (List.range s.sent)) : (s.stopAll toStart).Tracked :=
  { h with
    stage := h.stage.congr rfl rfl
    order := fun _ => horder
    inStep := fun _ _ => ⟨rfl, rfl, hfirst⟩
    played := fun _ => nil_subset _
    epochs := fun p r hr => Nat.le_succ_of_le (h.epochs p r hr)
    samples := by
      intro p r hr hepoch
      have hle := h.epochs p r hr
      have hsucc : r.epoch = s.epoch + 1 := hepoch
      omega
    reported := { h.reported with } }

theorem Tracked.rebuffer (hfirst : s.announced ≤ 1) : s.rebuffer.Tracked := by
  have horder : (if s.sent = 0 then [] else [s.sent - 1]).Sublist (List.range s.sent) := by
    split_ifs with hzero
    · exact nil_sublist _
    · rw [singleton_sublist, mem_range]
      omega
  exact (h.stopAll hfirst horder).putEvent rfl

/-- Nothing of an acquire has happened when it begins. -/
theorem Tracked.acquire (app : String) (hwaiting : s.waiting = []) (hcaughtUp : s.caughtUp = true) :
    (s.acquire app).Tracked := by
  obtain ⟨hacquires, -⟩ := h.settled hwaiting
  have hfresh : s.started (s.acquires + 1) = [] := h.fresh _ (Nat.lt_succ_self _)
  exact
    { h with
      stage := .acquiring
        (by
          have hnone : s.eventCh.filter StreamEvent.isMark = [] := hwaiting
          simp [waiting, Playback.acquire, filter_append, hnone, StreamEvent.isMark])
        (congrArg (· + 1) hacquires) rfl hfresh hcaughtUp
      sent := Nat.le_refl _
      order := fun _ => List.Sublist.refl _
      inStep := fun _ _ => ⟨rfl, rfl, Nat.zero_le _⟩
      starts := by
        show s.started (s.acquires + 1) = List.range (s.started (s.acquires + 1)).length
        simp [hfresh]
      played := fun _ => nil_subset _
      ahead := Nat.zero_le _
      fresh := fun j hj => h.fresh j (Nat.lt_of_succ_lt hj)
      epochs := fun p r hr => Nat.le_succ_of_le (h.epochs p r hr)
      samples := by
        intro p r hr hepoch
        have hle := h.epochs p r hr
        have hsucc : r.epoch = s.epoch + 1 := hepoch
        omega
      reported := { h.reported with } }

/-- Tracks of a player move on or are dropped, without one starting. -/
theorem Tracked.setDeck (p : Player) {d : Deck} (hplayed : d.played = (s.deck p).played)
    (hcounter : d.counter = (s.deck p).counter)
    (hrest : (d.decoded ++ d.toStart).Sublist ((s.deck p).decoded ++ (s.deck p).toStart)) :
    (s.setDeck p d).Tracked := by
  have hkept : ∀ q, ((s.setDeck p d).deck q).played = (s.deck q).played ∧
      ((s.setDeck p d).deck q).counter = (s.deck q).counter := by
    intro q
    rcases eq_or_ne q p with rfl | hne
    · simp [Playback.setDeck, hplayed, hcounter]
    · simp [Playback.setDeck, hne]
  exact
    { h with
      stage := h.stage.congr rfl rfl
      order := by
        intro q
        rcases eq_or_ne q p with rfl | hne
        · simp only [Playback.setDeck, Function.update_self, hplayed]
          exact ((List.Sublist.refl _).append hrest).trans (h.order q)
        · simpa [Playback.setDeck, hne] using h.order q
      inStep := by
        intro q hq
        obtain ⟨hp, hc⟩ := hkept q
        have hdeck := h.inStep q hq
        exact ⟨by rw [hc, hp, hdeck.counter], by rw [hp]; exact hdeck.played,
          by rw [hp]; exact hdeck.announced⟩
      played := fun q => (hkept q).1 ▸ h.played q
      samples := fun q r hr hepoch hq => (hkept q).2 ▸ h.samples q r hr hepoch hq
      reported := { h.reported with } }

theorem Tracked.poll (p : Player) : (s.poll p).Tracked := by
  -- a sample is an old one or that of the deck
  have hmem : ∀ q, ∀ r ∈ (s.poll p).samples q, r ∈ s.samples q ∨
      r = ⟨s.epoch, (s.deck q).counter, (s.deck q).played.getLast?⟩ := by
    intro q r hr
    rcases eq_or_ne q p with rfl | hne
    · simpa [Playback.poll] using hr
    · exact .inl (by simpa [Playback.poll, hne] using hr)
  exact
    { h with
      stage := h.stage.congr rfl rfl
      epochs := by
        intro q r hr
        rcases hmem q r hr with hold | rfl
        · exact h.epochs q r hold
        · exact Nat.le_refl _
      samples := by
        intro q r hr hepoch hq
        rcases hmem q r hr with hold | rfl
        · exact h.samples q r hold hepoch hq
        · have hdeck := h.inStep q hq
          refine ⟨Nat.le_refl _, ?_⟩
          rw [hdeck.counter, ← hdeck.played]
      reported := { h.reported with } }

end

/-- The next track of a player that counts all starts is the only one it has left. -/
theorem InStep.playSample {d : Deck} {announced sent : ℕ} {rest : List ℕ} (h : InStep d announced)
    (hsent : sent ≤ announced)
    (horder : (d.played ++ (i :: rest ++ d.toStart)).Sublist (List.range sent)) :
    rest = [] ∧ d.played ++ [i] = List.range (d.played.length + 1) := by
  have hlength := horder.length_le
  simp only [length_append, length_cons, length_range] at hlength
  have hannounced := h.announced
  have hrest : rest = [] := eq_nil_of_length_eq_zero (by omega)
  have hstart : d.toStart = [] := eq_nil_of_length_eq_zero (by omega)
  have hall : sent = d.played.length + 1 := by omega
  subst hrest hall
  rw [hstart] at horder
  exact ⟨rfl, horder.eq_of_length (by simp)⟩

/-- The tracks that have started, after the first sample of one of them. -/
def withStart (known : List ℕ) (i : ℕ) : List ℕ := if i ∈ known then known else known ++ [i]

theorem subset_withStart (known : List ℕ) (i : ℕ) : known ⊆ withStart known i := by
  rw [withStart]
  split_ifs
  · exact List.Subset.refl _
  · exact subset_append_left _ _

theorem mem_withStart (known : List ℕ) (i : ℕ) : i ∈ withStart known i := by
  rw [withStart]
  split_ifs with hi
  · exact hi
  · exact mem_append_right _ (mem_singleton_self i)

theorem length_le_withStart (known : List ℕ) (i : ℕ) :
    known.length ≤ (withStart known i).length := by
  rw [withStart]
  split_ifs
  · exact Nat.le_refl _
  · rw [length_append]
    exact Nat.le_add_right _ _

theorem withStart_range {known : List ℕ} (h : known = List.range known.length)
    (hi : i ≤ known.length) : withStart known i = List.range (withStart known i).length := by
  rw [withStart]
  split_ifs with hmem
  · exact h
  · rw [h, mem_range] at hmem
    have hnext : i = known.length := by omega
    rw [length_append, length_singleton, range_succ, ← h, hnext]

theorem started_playSample (s : Playback τ) (p : Player) (i : ℕ) (rest : List ℕ) :
    (s.playSample p i rest).started s.acquires = withStart (s.started s.acquires) i := by
  simp [Playback.playSample, withStart]

/-- The deck of a player that counts all starts. -/
theorem Tracked.inStep_playSample (h : s.Tracked) (p : Player) {rest : List ℕ}
    (hdecoded : (s.deck p).decoded = i :: rest) (q : Player) (hq : s.Counts q) :
    InStep ((s.playSample p i rest).deck q) s.announced := by
  have hdeck := h.inStep q hq
  rcases eq_or_ne q p with rfl | hne
  · have horder := h.order q
    rw [hdecoded] at horder
    obtain ⟨rfl, hplayed⟩ := hdeck.playSample h.sent horder
    have hannounced := hdeck.announced
    refine ⟨?_, ?_, ?_⟩
    · simp [Playback.playSample, hdeck.counter]
    · simpa [Playback.playSample] using hplayed
    · simp only [Playback.playSample, Function.update_self, length_append,
        length_singleton]
      omega
  · simpa [Playback.playSample, hne] using hdeck

/-- A start is one more that can be reported, and none is left out if it is an old one. -/
theorem TracksReported.playSample (h : s.TracksReported) (hacquires : s.acquires = s.acquiresTaken)
    (p : Player) (i : ℕ) (rest : List ℕ) : (s.playSample p i rest).TracksReported := by
  have hafter : (s.playSample p i rest).started s.acquiresTaken =
      withStart (s.started s.acquiresTaken) i := hacquires ▸ started_playSample s p i rest
  refine { h with atMost := ?_, all := ?_ }
  · rw [show (s.playSample p i rest).acquiresTaken = s.acquiresTaken from rfl, hafter]
    exact h.atMost.trans (length_le_withStart _ i)
  · intro hup
    obtain ⟨hold, hmem⟩ : s.caughtUp = true ∧ i ∈ s.started s.acquires := by
      simpa [Playback.playSample] using hup
    rw [show (s.playSample p i rest).acquiresTaken = s.acquiresTaken from rfl, hafter, withStart,
      if_pos (hacquires ▸ hmem)]
    exact h.all hold

section

variable (h : s.Tracked)
include h

theorem Tracked.playSample (p : Player) {rest : List ℕ}
    (hdecoded : (s.deck p).decoded = i :: rest) : (s.playSample p i rest).Tracked := by
  have horder := h.order p
  rw [hdecoded] at horder
  have hlt : i < s.sent :=
    mem_range.mp (horder.subset (mem_append_right _ mem_cons_self))
  have hsent := h.sent
  have hahead := h.ahead
  have hacquires : s.acquires = s.acquiresTaken := by
    cases h.stage with
    | settled _ hsame | beginning _ _ _ _ hsame => exact hsame
    | acquiring _ _ hzero => omega
  have hstarted := started_playSample s p i rest
  have hsame : (s.playSample p i rest).acquires = s.acquires := rfl
  refine
    { h with
      stage := ?_, order := ?_, inStep := h.inStep_playSample p hdecoded, starts := ?_, played := ?_
      ahead := ?_, fresh := ?_, samples := ?_
      reported := h.reported.playSample hacquires p i rest }
  · cases h.stage with
    | settled hnone hsame hall => exact .settled hnone hsame hall
    | beginning contentLength trackInfo audioType hone hsame hall hlength =>
      exact .beginning contentLength trackInfo audioType hone hsame hall hlength
    | acquiring _ _ hzero => omega
  · intro q
    rcases eq_or_ne q p with rfl | hne
    · simpa [Playback.playSample] using horder
    · simpa [Playback.playSample, hne] using h.order q
  · rw [hsame, hstarted]
    exact withStart_range h.starts (by omega)
  · intro q
    have hsubset := List.Subset.trans (h.played q) (subset_withStart _ i)
    rw [hsame, hstarted]
    rcases eq_or_ne q p with rfl | hne
    · simpa [Playback.playSample, mem_withStart] using hsubset
    · simpa [Playback.playSample, hne] using hsubset
  · rw [hsame, hstarted]
    exact hahead.trans (Nat.succ_le_succ (length_le_withStart _ i))
  · intro j hj
    simpa [Playback.playSample, (show s.acquires < j from hj).ne'] using h.fresh j hj
  · intro q r hr hepoch hq
    obtain ⟨hcount, hlast⟩ := h.samples q r hr hepoch hq
    refine ⟨hcount.trans ?_, hlast⟩
    rcases eq_or_ne q p with rfl | hne
    · simp only [Playback.playSample, Function.update_self]
      split <;> omega
    · simp [Playback.playSample, hne]

/-- The play thread goes on without a report, perhaps with other players. -/
theorem Tracked.setPlay (htracks : play.tracks = { s.play.tracks with players := play.players })
    (hcounts : ∀ p ∈ play.players.players, s.Counts p) : { s with play := play }.Tracked := by
  have hinfos : { s with play := play }.infos = s.infos :=
    congrArg (fun t : PlayThread.Tracks τ => t.infos.drop s.mark) htracks
  have hold : ∀ p, { s with play := play }.Counts p → s.Counts p := by
    rintro p (hfirst | hp)
    · exact .inl hfirst
    · exact hcounts p hp
  exact
    { h with
      number := by rw [hinfos, htracks, ← h.number]
      mark := by rw [htracks]; exact h.mark
      pending := by rw [hinfos, htracks]; exact h.pending
      stage := h.stage.congr rfl (by simp only [ledger, hinfos])
      inStep := fun p hp => h.inStep p (hold p hp)
      samples := fun p r hr hepoch hp => h.samples p r hr hepoch (hold p hp)
      reported :=
        { h.reported with
          infos := by rw [hinfos]; exact h.reported.infos
          atMost := by rw [hinfos]; exact h.reported.atMost
          all := by rw [hinfos]; exact h.reported.all } }

theorem Tracked.tookTrackBegin {contentLength : ℤ} {trackInfo : Option τ} {audioType : String}
    (hch : s.eventCh = .trackBegin contentLength trackInfo audioType :: rest)
    (htracks : play.tracks = { s.play.tracks with pending := trackInfo }) :
    (s.tookEvent rest play (.trackBegin contentLength trackInfo audioType)).Tracked := by
  have hfirst : s.waiting = .trackBegin contentLength trackInfo audioType ::
      rest.filter StreamEvent.isMark := by
    rw [waiting, hch]
    rfl
  obtain ⟨hrest, hacquires, htaken, hannounced⟩ : rest.filter StreamEvent.isMark = [] ∧
      s.acquires = s.acquiresTaken ∧ s.taken = s.infos ∧ s.announced = s.taken.length + 1 := by
    cases h.stage with
    | settled hnone => simp [hnone] at hfirst
    | beginning _ _ _ hone hacquires htaken hannounced =>
      rw [hone, List.cons.injEq] at hfirst
      exact ⟨hfirst.2.symm, hacquires, htaken, hannounced⟩
    | acquiring hone => simp [hone] at hfirst
  have hplayers : play.tracks.players = s.play.tracks.players := by rw [htracks]
  have hinfos : (s.tookEvent rest play (.trackBegin contentLength trackInfo audioType)).infos =
      s.infos := congrArg (fun t : PlayThread.Tracks τ => t.infos.drop s.mark) htracks
  have hcounts : ∀ p, (s.tookEvent rest play
      (.trackBegin contentLength trackInfo audioType)).Counts p → s.Counts p :=
    fun p hp => hp.of_players rfl hplayers
  exact
    { h with
      number := by
        rw [hinfos, ← h.number]
        show play.tracks.number = s.play.tracks.number
        rw [htracks]
      mark := by
        show s.mark ≤ play.tracks.infos.length
        rw [htracks]
        exact h.mark
      pending := .inr (by
        rw [hinfos]
        show s.taken ++ [trackInfo] = s.infos ++ [play.tracks.pending]
        rw [htracks, htaken])
      stage := .settled hrest hacquires (by simp [tookEvent, hannounced])
      inStep := fun p hp => h.inStep p (hcounts p hp)
      samples := fun p r hr hepoch hp => h.samples p r hr hepoch (hcounts p hp)
      reported :=
        { h.reported with
          infos := by
            rw [hinfos]
            exact h.reported.infos.trans (prefix_append _ _)
          atMost := by rw [hinfos]; exact h.reported.atMost
          all := by rw [hinfos]; exact h.reported.all } }

theorem Tracked.tookAcquireDone (hch : s.eventCh = .acquireDone :: rest)
    (htracks : play.tracks = { s.play.tracks with number := 0, pending := none }) :
    (s.tookEvent rest play .acquireDone).Tracked := by
  have hfirst : s.waiting = .acquireDone :: rest.filter StreamEvent.isMark := by
    rw [waiting, hch]
    rfl
  obtain ⟨hrest, hacquires, hannounced, hstarted, hcaughtUp⟩ :
      rest.filter StreamEvent.isMark = [] ∧ s.acquires = s.acquiresTaken + 1 ∧
        s.announced = 0 ∧ s.started s.acquires = [] ∧ s.caughtUp = true := by
    cases h.stage with
    | settled hnone => simp [hnone] at hfirst
    | beginning _ _ _ hone => simp [hone] at hfirst
    | acquiring hone hacquires hannounced hstarted hcaughtUp =>
      rw [hone, List.cons.injEq] at hfirst
      exact ⟨hfirst.2.symm, hacquires, hannounced, hstarted, hcaughtUp⟩
  have hnone : (s.tookEvent rest play .acquireDone).infos = [] := by
    simp [infos, tookEvent]
  have hempty : (s.tookEvent rest play .acquireDone).started (s.acquiresTaken + 1) = [] :=
    hacquires ▸ hstarted
  exact
    { h with
      number := by
        rw [hnone]
        exact congrArg PlayThread.Tracks.number htracks
      mark := Nat.le_refl _
      pending := .inl hnone.symm
      stage := .settled hrest hacquires hannounced
      inStep := fun p _ => h.inStep p (.inl (by omega))
      samples := fun p r hr hepoch _ => h.samples p r hr hepoch (.inl (by omega))
      reported :=
        { asserts := h.reported.asserts
          infos := by rw [hnone]; exact nil_prefix
          atMost := by rw [hnone]; exact Nat.zero_le _
          all := by
            intro _
            rw [hnone]
            exact (congrArg List.length hempty).symm
          closed := by
            intro a ha
            rcases mem_append.mp ha with hold | hnew
            · exact h.reported.closed a hold
            · rw [mem_singleton.mp hnew]
              exact ⟨h.reported.infos, h.reported.all hcaughtUp⟩ } }

/-- The play thread takes a message from which it hears of no new track. -/
theorem Tracked.noStart (htracks : play.tracks = s.play.tracks) :
    { s with play := play }.Tracked := by
  have hplayers : play.players = s.play.players := congrArg PlayThread.Tracks.players htracks
  exact h.setPlay (by rw [hplayers]; exact htracks) fun p hp => .inr (by rwa [hplayers] at hp)

theorem Tracked.tookOther (hch : s.eventCh = e :: rest) (he : e.isMark = false)
    (htracks : play.tracks = s.play.tracks) : { s with play := play, eventCh := rest }.Tracked := by
  refine (h.noStart htracks).of_waiting ?_
  simp [waiting, hch, he]

theorem Tracked.tookEvent (hch : s.eventCh = e :: rest) :
    (s.tookEvent rest (s.play.handleStreamEvent e) e).Tracked := by
  have htracks := s.play.tracks_handleStreamEvent e
  cases e with
  | trackBegin => exact h.tookTrackBegin hch htracks
  | acquireDone => exact h.tookAcquireDone hch htracks
  | waitingForAcquire | acquireStarted | trackEnd | flush | buffer | rebuffer =>
    exact h.tookOther hch rfl htracks

/-- What a report of the current epoch can say. -/
theorem Tracked.sample_spec {r : Sample} (hr : r ∈ s.samples p) (hepoch : r.epoch = s.epoch)
    (hp : p ∈ s.play.players.players) :
    r.count ≤ s.announced ∧ r.count ≤ (s.started s.acquires).length ∧
      (r.last = (s.started s.acquires).getLast? →
        r.count = (s.started s.acquires).length) := by
  obtain ⟨hcount, hlast⟩ := h.samples p r hr hepoch (.inr hp)
  have hdeck := h.inStep p (.inr hp)
  rw [hdeck.counter] at hcount
  have hsent := (h.order p).length_le
  simp only [length_append, length_range] at hsent
  have hannounced := h.sent
  have hstarted : (s.deck p).played.length ≤ (s.started s.acquires).length := by
    have hsubset := h.played p
    rw [hdeck.played, h.starts, range_subset] at hsubset
    exact hsubset
  refine ⟨by omega, by omega, fun hsame => ?_⟩
  rw [hlast, h.starts, getLast?_range, getLast?_range] at hsame
  split_ifs at hsame with hnone hempty
  · omega
  · rw [Option.some.injEq] at hsame
    omega

theorem Tracked.setCaughtUp (hwaiting : s.waiting = []) {caughtUp : Bool}
    (hall : caughtUp = true → s.infos.length = (s.started s.acquiresTaken).length) :
    { s with caughtUp := caughtUp }.Tracked := by
  obtain ⟨hacquires, hannounced⟩ := h.settled hwaiting
  exact
    { h with
      stage := .settled hwaiting hacquires hannounced
      reported := { h.reported with all := hall } }

/-- The next track is reported, and its `track_info` is the one that waits. -/
theorem Tracked.reportStart (hwaiting : s.waiting = [])
    (htracks : play.tracks =
      { s.play.tracks with
        number := s.play.tracks.number + 1
        pending := none
        infos := s.play.tracks.infos ++ [s.play.tracks.pending] })
    (hannounced : s.infos.length + 1 ≤ s.announced)
    (hstarted : s.infos.length + 1 ≤ (s.started s.acquires).length) :
    { s with play := play }.Tracked ∧
      { s with play := play }.infos.length = s.infos.length + 1 := by
  obtain ⟨hacquires, htaken⟩ := h.settled hwaiting
  have hpending : s.taken = s.infos ++ [s.play.tracks.pending] := by
    rcases h.pending with heq | heq
    · rw [htaken, heq] at hannounced
      omega
    · exact heq
  have hinfos : { s with play := play }.infos = s.infos ++ [s.play.tracks.pending] := by
    show play.tracks.infos.drop s.mark = s.play.tracks.infos.drop s.mark ++ _
    rw [htracks, drop_append_of_le_length h.mark]
  have hlength : { s with play := play }.infos.length = s.infos.length + 1 := by
    rw [hinfos, length_append, length_singleton]
  have hplayers : play.tracks.players = s.play.tracks.players := by rw [htracks]
  have hcounts : ∀ p, { s with play := play }.Counts p → s.Counts p :=
    fun p hp => hp.of_players rfl hplayers
  refine ⟨?_, hlength⟩
  exact
    { h with
      number := by
        rw [hlength, htracks, Nat.cast_add, ← h.number]
        rfl
      mark := by
        rw [htracks, length_append]
        exact h.mark.trans (Nat.le_add_right _ _)
      pending := .inl (hpending.trans hinfos.symm)
      stage := .settled hwaiting hacquires htaken
      inStep := fun p hp => h.inStep p (hcounts p hp)
      samples := fun p r hr hepoch hp => h.samples p r hr hepoch (hcounts p hp)
      reported :=
        { h.reported with
          infos := by
            rw [hinfos]
            exact hpending ▸ prefix_refl _
          atMost := by
            rw [hlength]
            exact hacquires ▸ hstarted
          all := by
            -- a thread that had caught up would have had nothing to report
            intro hup
            have hall := h.reported.all hup
            rw [← hacquires] at hall
            omega } }

end

theorem mem_of_heard (h : play.heard matched = some p) : p ∈ play.players.players := by
  rw [PlayThread.heard] at h
  split at h
  · exact mem_of_mem_head? h
  · cases h

section

variable (h : s.Tracked) {view : Player → PlayerView} {pick : Player → Sample}
  (hwaiting : s.waiting = []) (hpick : ∀ p ∈ s.play.players.players, pick p ∈ s.samples p)
  (hepoch : ∀ p ∈ s.play.players.players, (pick p).epoch = s.epoch)
include h hwaiting hpick hepoch

/-- A report is at most one start ahead of the play thread. -/
theorem Tracked.assertFails_eq :
    s.play.assertFails (known view pick) matched = false := by
  obtain ⟨-, htaken⟩ := h.settled hwaiting
  have hlength := h.length_taken
  rw [PlayThread.assertFails]
  cases hheard : s.play.heard matched with
  | none => rfl
  | some p =>
    have hp := mem_of_heard hheard
    obtain ⟨hannounced, -, -⟩ := h.sample_spec (hpick p hp) (hepoch p hp) hp
    have hcount : (known view pick p).state.numTracksStarted = ((pick p).count : ℤ) := rfl
    have hnumber : s.play.numTracksStarted = (s.infos.length : ℤ) := h.number
    simp only [any_some, hcount, hnumber, Bool.and_eq_false_iff, decide_eq_false_iff_not]
    omega

theorem Tracked.handledStates :
    (s.handledStates matched view pick
      (s.play.handlePlayerStates (known view pick) matched)).Tracked := by
  have htracks := s.play.tracks_handlePlayerStates (known view pick) matched
  have hassert : s.play.assertFails (known view pick) matched = false :=
    h.assertFails_eq hwaiting hpick hepoch
  obtain ⟨hacquires, htaken⟩ := h.settled hwaiting
  have hlength := h.length_taken
  have hall := h.reported.all
  have hmost := h.reported.atMost
  rw [← hacquires] at hall hmost
  simp only [Playback.handledStates, hassert, Bool.or_false]
  cases hheard : s.play.heard matched with
  | none =>
    rw [hheard, elim_none] at htracks
    have hcatch : s.catchesUp matched pick = false := by
      rw [catchesUp, hheard, any_none]
    simp only [hcatch, Bool.or_false]
    exact h.noStart htracks
  | some p =>
    rw [hheard, elim_some] at htracks
    have hp := mem_of_heard hheard
    obtain ⟨hannounced, hstarted, hlast⟩ := h.sample_spec (hpick p hp) (hepoch p hp) hp
    have hcatch : s.catchesUp matched pick = true →
        (pick p).count = (s.started s.acquires).length := by
      intro hup
      rw [catchesUp, hheard, any_some, decide_eq_true_eq] at hup
      exact hlast hup.2
    have hcount : (known view pick p).state.numTracksStarted = ((pick p).count : ℤ) := rfl
    rw [hcount, PlayThread.Tracks.report, h.number] at htracks
    split_ifs at htracks with hnext
    · rw [← h.number] at htracks
      obtain ⟨hplay, hone⟩ := h.reportStart hwaiting htracks (by omega) (by omega)
      refine hplay.setCaughtUp hwaiting fun hup => ?_
      rw [hone]
      show s.infos.length + 1 = (s.started s.acquiresTaken).length
      rw [← hacquires]
      rcases (Bool.or_eq_true _ _).mp hup with hold | hnew
      · have hsame := hall hold
        omega
      · have hsame := hcatch hnew
        omega
    · have hplay := h.noStart htracks
      have hinfos : { s with play := s.play.handlePlayerStates (known view pick) matched }.infos =
          s.infos := congrArg (fun t : PlayThread.Tracks τ => t.infos.drop s.mark) htracks
      refine hplay.setCaughtUp hwaiting fun hup => ?_
      rw [hinfos]
      show s.infos.length = (s.started s.acquiresTaken).length
      rw [← hacquires]
      rcases (Bool.or_eq_true _ _).mp hup with hold | hnew
      · exact hall hold
      · have hsame := hcatch hnew
        omega

end

theorem Tracked.playerStep (h : s.Tracked) (hs : s.playerStep input = some s') : s'.Tracked := by
  cases input with simp only [Playback.playerStep, reduceCtorEq] at hs
  | decode p | skip p =>
    split at hs
    · cases hs
    · rename_i i rest hstart
      cases hs
      exact h.setDeck p rfl rfl (by simp [hstart])
  | playSample p =>
    split at hs
    · cases hs
    · rename_i i rest hdecoded
      cases hs
      exact h.playSample p hdecoded
  | flush p =>
    cases hs
    exact h.setDeck p rfl rfl (nil_sublist _)
  | poll p =>
    cases hs
    exact h.poll p

theorem not_crashed_of_step {play' : PlayThread τ} {input : PlayInput τ}
    (h : play.step input = some play') : play.crashed = false := by
  by_contra hcrashed
  simp [PlayThread.step, hcrashed] at h

theorem Tracked.playStep (h : s.Tracked) (hok : s.Paced input) (hs : s.playStep input = some s') :
    s'.Tracked := by
  cases input with simp only [Playback.playStep, reduceCtorEq] at hs
  | takeEvent =>
    split at hs
    · cases hs
    · rename_i e rest hch
      obtain ⟨play, hplay, rfl⟩ := map_eq_some_iff.mp hs
      simp only [PlayThread.step, not_crashed_of_step hplay, Bool.false_eq_true, if_false,
        Option.some.injEq] at hplay
      exact hplay ▸ h.tookEvent hch
  | states matched view pick =>
    obtain ⟨hpick, hs⟩ := ite_none_right_eq_some.mp hs
    obtain ⟨play, hplay, rfl⟩ := map_eq_some_iff.mp hs
    simp only [PlayThread.step, not_crashed_of_step hplay, Bool.false_eq_true, if_false,
      Option.some.injEq] at hplay
    exact hplay ▸ h.handledStates hok.1 hpick hok.2
  | play input =>
    obtain ⟨hother, hs⟩ := ite_none_right_eq_some.mp hs
    obtain ⟨play, hplay, rfl⟩ := map_eq_some_iff.mp hs
    rcases PlayThread.tracks_step_other hother hplay with htracks | ⟨ps, rfl, htracks⟩
    · exact h.noStart htracks
    · have hplayers : play.players = ps := congrArg PlayThread.Tracks.players htracks
      refine h.setPlay (by rw [hplayers]; exact htracks) fun p hp => ?_
      rw [hplayers] at hp
      exact Or.imp_right (fun hold => hold p hp) hok

theorem Tracked.step (h : s.Tracked) (hok : s.Paced input) (hs : s.step input = some s') :
    s'.Tracked := by
  cases input with
  | acquire app =>
    cases hs
    exact h.acquire app hok.1 hok.2
  | announce contentLength trackInfo audioType =>
    obtain ⟨-, rfl⟩ := ite_some_none_eq_some.mp hs
    exact h.announce contentLength trackInfo audioType hok.1 hok.2.1 hok.2.2
  | sendTrack =>
    obtain ⟨hsent, rfl⟩ := ite_some_none_eq_some.mp hs
    exact h.sendTrack hsent
  | event e =>
    obtain ⟨he, heq⟩ := ite_none_left_eq_some.mp hs
    cases heq
    exact h.putEvent (by simpa using he)
  | rebuffer =>
    obtain ⟨-, rfl⟩ := ite_some_none_eq_some.mp hs
    exact h.rebuffer hok
  | decode | skip | playSample | flush | poll =>
    simp only [Playback.step] at hs
    exact h.playerStep hs
  | takeEvent | states | play =>
    exact h.playStep hok hs

end Step

end Playback

/-- In a run whose steps are paced, the events for started tracks are right in every
state. -/
theorem tracksReported_of_paced {τ : Type} {s : Playback τ}
    (h : (playback τ).ReachableUnder Playback.Paced s) : s.TracksReported :=
  (h.invariant Playback.tracked_init fun _ _ _ ht hok hs => ht.step hok hs).reported

/-- The states of idle players, but for their counters. -/
def idleView (_ : Player) : PlayerView := ⟨{}, none⟩

/-- The one player begins an acquire. -/
def acquireAlone : List (PlaybackInput String) :=
  [.play (.players onePlayer), .acquire "app", .takeEvent, .takeEvent]

/-- A track is sent to the player. -/
def sendOne (info : String) : List (PlaybackInput String) :=
  [.announce 0 (some info) "mp3", .takeEvent, .sendTrack]

/-- The player starts its next track and reports it. -/
def startOne (epoch count : ℕ) (last : ℕ) : List (PlaybackInput String) :=
  [.decode ⟨"p", 0⟩, .playSample ⟨"p", 0⟩, .poll ⟨"p", 0⟩,
    .states ["p"] idleView fun _ => ⟨epoch, count, some last⟩]

/-- Two tracks, the first of which is rebuffered after it has started. -/
def rebufferedTracks : List (PlaybackInput String) :=
  acquireAlone ++ sendOne "a" ++ startOne 1 1 0 ++ [.rebuffer, .takeEvent] ++
    startOne 2 1 0 ++ sendOne "b" ++ startOne 2 2 1

theorem tracksReported_two_tracks :
    ∃ s, (playback String).runFrom .init rebufferedTracks = some s ∧
      s.infos = [some "a", some "b"] ∧ s.TracksReported :=
  ⟨_, rfl, rfl, tracksReported_of_paced
    (System.ReachableUnder.runFrom rebufferedTracks .init (by decide) rfl)⟩

/-- The second track is announced before the first one has started. -/
theorem overtaken_trackInfo :
    ∃ s, (playback String).Reachable s ∧ s.taken = [some "a", some "b"] ∧
      s.infos = [some "b"] ∧ ¬s.TracksReported := by
  let es := acquireAlone ++ sendOne "a" ++ sendOne "b" ++ startOne 1 1 0
  refine ⟨_, System.Reachable.runFrom es .init rfl, rfl, rfl, fun h => ?_⟩
  exact absurd h.infos (by decide)

end BeepMusic.Distributor
