import Mathlib.Data.Rat.Floor
import BeepMusic.Distributor.Player
import BeepMusic.Lib.System

/-!
`play_thread` of `distributor.lua`: it decides when the audio of the streaming
players runs. One event is one turn of its loop, that is one message taken from
one of its channels, or the expiry of a timer it has started. The messages
themselves are arbitrary. `resume_timer` is left out: nothing ever sets it.
-/

namespace BeepMusic.Distributor

open Lib

inductive AudioState
  | paused
  | autostart
  | starting
  | playing
  deriving DecidableEq

inductive PlayCommand
  | pause
  | resume
  | appPause
  | appResume
  deriving DecidableEq

inductive PlayEvent (τ : Type)
  | durationChange (duration : ℤ)
  | trackStarted (trackInfo : Option τ)
  | trackEnded
  deriving DecidableEq

/-- What the thread asks of applications. -/
inductive AppRequest
  | pause (app : String)
  | resume (app : String)
  | playHistory
  deriving DecidableEq

def audioStartWatermarkDefault : ℤ := 40 * 1024
def audioStartWatermarkSlow : ℤ := 1500 * 1024
def audioLowWatermark : ℤ := 10 * 1024

/-- The locals of `play_thread`, the start watermark with its timer, the number
of end-of-track timers that are running, the commands waiting for it, and what
it has sent: states, events, requests to applications and orders to players. -/
structure PlayThread (τ : Type) where
  audioState : AudioState
  players : PlayerSet
  haveSentDuration : Bool
  trackContentLength : ℤ
  mostRecentStreamEvent : Option (StreamEvent τ)
  numTracksStarted : ℤ
  pendingTrackInfo : Option τ
  didSendAudioEnded : Bool
  missedCookieCount : ℕ
  audioStartWatermark : ℤ
  revertTimer : Bool
  endTimers : ℕ
  playCommands : List PlayCommand
  playStates : List AudioState
  playEvents : List (PlayEvent τ)
  appRequests : List AppRequest
  orders : List (Order × Player)
  crashed : Bool

/-- `state` and `prev_state` of a player. -/
structure PlayerView where
  state : PlayerState
  prevState : Option PlayerState

namespace PlayThread

variable {τ : Type}

def init : PlayThread τ where
  audioState := .paused
  players := .empty
  haveSentDuration := false
  trackContentLength := 0
  mostRecentStreamEvent := none
  numTracksStarted := 0
  pendingTrackInfo := none
  didSendAudioEnded := false
  missedCookieCount := 0
  audioStartWatermark := audioStartWatermarkDefault
  revertTimer := false
  endTimers := 0
  playCommands := []
  playStates := []
  playEvents := []
  appRequests := []
  orders := []
  crashed := false

variable (s : PlayThread τ)

/-- A Lua error, or a failed `assert`, in the thread ends the process. -/
def crash : PlayThread τ := { s with crashed := true }

def updateAudioState (state : AudioState) : PlayThread τ :=
  { s with audioState := state, playStates := s.playStates ++ [state] }

def sendPlayEvent (e : PlayEvent τ) : PlayThread τ :=
  { s with playEvents := s.playEvents ++ [e] }

def sendDurationChange (duration : ℤ) : PlayThread τ :=
  { s.sendPlayEvent (.durationChange duration) with haveSentDuration := true }

def putCommand (c : PlayCommand) : PlayThread τ :=
  { s with playCommands := s.playCommands ++ [c] }

def request (r : AppRequest) : PlayThread τ :=
  { s with appRequests := s.appRequests ++ [r] }

/-- An order to every player of a list. -/
def send (o : Order) (ps : List Player) : PlayThread τ :=
  { s with orders := s.orders ++ ps.map fun p => (o, p) }

/-- `all_players_call` and `all_players_resume`, for the current players. -/
def allPlayersCall (o : Order) : PlayThread τ := s.send o s.players.players

/-- The `app_pause` command. When the application does not know the method, its
answer puts a `pause` command, like any other caller. -/
def appPause (app : Option String) (s : PlayThread τ) : PlayThread τ :=
  if s.audioState ≠ .paused then
    match app with
    | some obj => s.request (.pause obj)
    | none => s.putCommand .pause
  else s

/-- The `app_resume` command; `stale` says that the last track advance is longer
ago than `RESTART_STATION_TIMEOUT`. -/
def appResume (app : Option String) (stale : Bool) (s : PlayThread τ) : PlayThread τ :=
  if s.audioState = .paused then
    match app with
    | none => s.request .playHistory
    | some obj =>
      if obj = "beep.app.spotify" then s.request (.resume obj)
      else
        match s.mostRecentStreamEvent with
        | none => s.crash
        | some .waitingForAcquire => s.request .playHistory
        | some _ => if stale then s.request .playHistory else s.putCommand .resume
  else s

def handleCommand (app : Option String) (stale : Bool) (s : PlayThread τ) :
    PlayCommand → PlayThread τ
  | .pause =>
    if s.audioState ≠ .paused then (s.updateAudioState .paused).allPlayersCall .pause else s
  | .resume => if s.audioState = .paused then s.updateAudioState .autostart else s
  | .appPause => s.appPause app
  | .appResume => s.appResume app stale

def handleStreamEvent (e : StreamEvent τ) : PlayThread τ :=
  let s := { s with mostRecentStreamEvent := some e }
  match e with
  | .acquireDone =>
    let s :=
      if s.audioState = .starting ∨ s.audioState = .playing then s.updateAudioState .autostart
      else s
    { s with trackContentLength := 0, numTracksStarted := 0, pendingTrackInfo := none }
  | .trackBegin contentLength trackInfo _ =>
    { s with
      pendingTrackInfo := trackInfo
      trackContentLength := contentLength
      haveSentDuration := false }
  -- from here on an empty output buffer means that the track has ended
  | .trackEnd => { s with didSendAudioEnded := false }
  | .flush => (s.allPlayersCall .pause).updateAudioState .autostart
  | _ => s

section PlayerStates

variable (view : Player → PlayerView)

/-- Start the players once all of them have enough to play. -/
def autostart : PlayThread τ :=
  if s.audioState = .autostart ∧
      s.players.allVals (fun p => s.audioStartWatermark ≤ (view p).state.outputUsed) then
    (s.updateAudioState .starting).allPlayersCall .resume
  else s

/-- A player's audio has advanced since the report before. -/
def advanced (p : Player) : Bool :=
  match (view p).prevState with
  | none => false
  | some prev => prev.writtenTrackTime < (view p).state.writtenTrackTime

def startPlaying : PlayThread τ :=
  if s.audioState = .starting ∧ s.players.allVals (advanced view) then
    let s := s.updateAudioState .playing
    if s.haveSentDuration then s else s.sendDurationChange 0
  else s

variable (player1 : Player)

def reportDuration (s : PlayThread τ) : PlayThread τ :=
  if s.haveSentDuration = false ∧ (view player1).state.bitrate ≠ 0 then
    s.sendDurationChange
      ⌈(s.trackContentLength * 8 : ℚ) / ((view player1).state.bitrate * 1024)⌉
  else s

def reportTrackStarted (s : PlayThread τ) : PlayThread τ :=
  let started := (view player1).state.numTracksStarted
  if s.numTracksStarted < started then
    if started = s.numTracksStarted + 1 then
      { s.sendPlayEvent (.trackStarted s.pendingTrackInfo) with
        numTracksStarted := s.numTracksStarted + 1
        pendingTrackInfo := none }
    else s.crash
  else s

/-- Pause to catch up after an underrun within a track. -/
def catchUp : PlayThread τ :=
  if (s.audioState = .playing ∨ s.audioState = .starting) ∧
      s.players.anyVals (fun p => (view p).state.outputUsed ≤ audioLowWatermark) then
    let s := { s with audioStartWatermark := audioStartWatermarkSlow, revertTimer := true }
    (s.updateAudioState .autostart).allPlayersCall .pause
  else s

/-- The end of the last track: the state is not sent yet, and becomes paused
when the timer started here expires before anything new. -/
def endOfTrack (s : PlayThread τ) : PlayThread τ :=
  if (view player1).state.outputUsed = 0 ∧ s.didSendAudioEnded = false then
    let s := { s with didSendAudioEnded := true }.sendPlayEvent .trackEnded
    { ({ s with audioState := .autostart }.allPlayersCall .pause) with
      endTimers := s.endTimers + 1 }
  else s

def handleUnderflow (s : PlayThread τ) : PlayThread τ :=
  match s.mostRecentStreamEvent with
  | none => s.crash
  | some .trackEnd => s.endOfTrack view player1
  | some _ => s.catchUp view

def handlePlayerStates (matched : List String) (s : PlayThread τ) : PlayThread τ :=
  if s.players.isSubsetOf matched = false then
    { s with missedCookieCount := s.missedCookieCount + 1 }
  else
    match s.players.players with
    | [] => s
    | player1 :: _ =>
      let s := { s with missedCookieCount := 0 }
      let s := (s.autostart view).startPlaying view
      let s := (s.reportDuration view player1).reportTrackStarted view player1
      if s.crashed then s else s.handleUnderflow view player1

end PlayerStates

/-- The end-of-track timer. -/
def endTimerExpires : PlayThread τ :=
  let s := { s with endTimers := s.endTimers - 1 }
  match s.mostRecentStreamEvent with
  | some .trackEnd => s.updateAudioState .paused
  | _ => s

end PlayThread

inductive PlayInput (τ : Type)
  | players (ps : PlayerSet)
  | playerStates (matched : List String) (view : Player → PlayerView)
  /-- The next command is taken; `app` is `app_ubus_obj` at that time. -/
  | command (app : Option String) (stale : Bool)
  | streamEvent (e : StreamEvent τ)
  | debug
  | endTimer
  | revertTimer
  /-- Somebody puts a command. -/
  | putCommand (c : PlayCommand)
  /-- Another thread stops players. -/
  | stop (ps : List Player)

namespace PlayThread

variable {τ : Type}

def step (s : PlayThread τ) (input : PlayInput τ) : Option (PlayThread τ) :=
  if s.crashed then none
  else
    match input with
    | .players ps => some { s with players := ps }
    | .playerStates matched view => some (s.handlePlayerStates view matched)
    | .command app stale =>
      match s.playCommands with
      | [] => none
      | c :: cs => some ({ s with playCommands := cs }.handleCommand app stale c)
    | .streamEvent e => some (s.handleStreamEvent e)
    | .debug => some s
    | .endTimer => if 0 < s.endTimers then some s.endTimerExpires else none
    | .revertTimer =>
      if s.revertTimer then
        some { s with audioStartWatermark := audioStartWatermarkDefault, revertTimer := false }
      else none
    | .putCommand c => some (s.putCommand c)
    | .stop ps => some (s.send .stop ps)

end PlayThread

/-- The play thread as a transition system. -/
def playThread (τ : Type) : System (PlayThread τ) (PlayInput τ) where
  init := .init
  step := PlayThread.step

end BeepMusic.Distributor
