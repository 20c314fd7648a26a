import BeepMusic.Distributor.Play
import BeepMusic.Distributor.Rebuffer

/-!
`state_thread` of `distributor.lua`: it keeps the table `state` that clients are
shown, from what the other threads send it. One event is one turn of its loop, or
one of the callbacks that write to the same table: the answer about the current
application and the history of stations. The volumes of the table are a system of
their own (`Volumes`); the rest is here.
-/

namespace BeepMusic.Distributor

/-- `state.audio_state`. -/
inductive ReportedAudio
  | paused
  | working
  | playing
  deriving DecidableEq

/-- `state.play_state`. -/
inductive ReportedPlay
  | playing
  | stopped
  deriving DecidableEq

/-- `state.station`; only `app` is always there. -/
structure Station where
  app : String
  id : Option String := none
  name : Option String := none
  imageUrl : Option String := none
  method : Option String := none
  args : Option String := none
  deriving DecidableEq

def historySize : ℕ := 10

/-- `History:add`. A station that is known moves to the front as it was. -/
def addHistory (station : Station) (history : List Station) : List Station :=
  match station.id with
  | none => history
  | some _ =>
    let others := history.filter fun st => st.id ≠ station.id
    let found := history.find? fun st => st.id = station.id
    ((found.getD station) :: others).take historySize

/-- `History:get_list`: index, name and application. -/
def historyList (history : List Station) : List (ℕ × Option String × String) :=
  history.zipIdx.map fun e => (e.2 + 1, e.1.name, e.1.app)

/-- The names under which clients are sent the table. -/
inductive StateUpdate
  | progress (trackElapsedSecs : ℤ)
  | audioStateChange
  | durationChange
  | trackStarted
  | stopped
  | stationChanged
  | historyUpdated
  deriving DecidableEq

/-- What the thread asks of other processes. -/
inductive StateRequest
  | getCurrentApp
  | setCurrentApp (app : String)
  | notifyAcquire (name : String)
  | audioEnded (app : String)
  deriving DecidableEq

/-- What the thread reads of a player's state. -/
structure ProgressView where
  writtenTrackTime : ℤ
  streambufFreeLastKnown : ℤ
  outputUsed : ℤ

/-- The message of `set_station`. -/
structure StationMessage where
  stationId : String
  stationName : String
  stationImageUrl : String
  playStationMethod : String
  playStationArgs : String

/-- The locals of the thread, the table `state` without its volumes, and what has
been sent. A field of the table that is not there is `none`. -/
structure StateThread (τ : Type) where
  players : PlayerSet
  mostRecentStreamEvent : Option (StreamEvent τ)
  lastReportedTrackElapsed : ℤ
  writtenTrackTimeBase : Option ℤ
  trackElapsedSecsBase : Option ℤ
  audioState : ReportedAudio
  playState : ReportedPlay
  trackInfo : Option τ
  station : Option Station
  trackElapsedSecs : Option ℤ
  streambufUsed : Option ℤ
  outputUsed : Option ℤ
  writtenTrackTime : Option ℤ
  duration : Option ℤ
  historyShown : Option (List (ℕ × Option String × String))
  history : Option (List Station)
  appUbusObj : Option String
  lastTrackAdvanceTime : ℤ
  requests : List StateRequest
  updates : List StateUpdate
  crashed : Bool

inductive StateInput (τ : Type)
  | players (ps : PlayerSet)
  /-- The states of the players are read when the message is handled. -/
  | playerStates (matched : List String) (view : Player → ProgressView) (now : ℤ)
  | playState (playState : AudioState)
  | playEvent (e : PlayEvent τ)
  | streamEvent (e : StreamEvent τ)
  | setStation (msg : StationMessage)
  | setTrackInfo (trackInfo : Option τ)
  /-- The answer to a question for the current application. -/
  | currentApp (app : String)
  /-- The history object is made, and later has what is stored. -/
  | historyTimer
  | historyReady (stored : Option (List Station))

namespace StateThread

variable {τ : Type}

def init : StateThread τ where
  players := .empty
  mostRecentStreamEvent := none
  lastReportedTrackElapsed := 0
  writtenTrackTimeBase := some 0
  trackElapsedSecsBase := some 0
  audioState := .paused
  playState := .stopped
  trackInfo := none
  station := none
  trackElapsedSecs := none
  streambufUsed := none
  outputUsed := none
  writtenTrackTime := none
  duration := none
  historyShown := none
  history := none
  appUbusObj := none
  lastTrackAdvanceTime := 0
  requests := []
  updates := []
  crashed := false

variable (s : StateThread τ)

/-- A Lua error. -/
def crash : StateThread τ := { s with crashed := true }

def triggerUpdate (u : StateUpdate) (s : StateThread τ) : StateThread τ :=
  { s with updates := s.updates ++ [u] }

def request (r : StateRequest) (s : StateThread τ) : StateThread τ :=
  { s with requests := s.requests ++ [r] }

def appName (app : String) : String := app.replace "beep.app." ""

def setAppUbusObj (app : String) (s : StateThread τ) : StateThread τ :=
  if s.appUbusObj ≠ some app then
    { { s with appUbusObj := some app }.request (.setCurrentApp app) with
      station := some { app := appName app } }.triggerUpdate .stationChanged
  else s

def handlePlayers (ps : PlayerSet) (s : StateThread τ) : StateThread τ :=
  let hadNoPlayers := s.players.isEmpty
  let s := { s with players := ps }
  if hadNoPlayers && !ps.isEmpty then s.request .getCurrentApp else s

/-- A new whole second of the track. A base that is not there cannot be added to. -/
def reportProgress (trackElapsed : ℤ) (player1 : ProgressView) (now : ℤ) (s : StateThread τ) :
    StateThread τ :=
  match s.trackElapsedSecsBase, s.writtenTrackTimeBase with
  | some secsBase, some timeBase =>
    { s with
      lastTrackAdvanceTime := now
      lastReportedTrackElapsed := trackElapsed
      trackElapsedSecs := some (trackElapsed + secsBase)
      streambufUsed := some (streambufSize - player1.streambufFreeLastKnown)
      outputUsed := some player1.outputUsed
      writtenTrackTime := some (player1.writtenTrackTime + timeBase)
    }.triggerUpdate (.progress trackElapsed)
  | _, _ => s.crash

def handlePlayerStates (matched : List String) (view : Player → ProgressView) (now : ℤ)
    (s : StateThread τ) : StateThread τ :=
  match s.players.players with
  | [] => s
  | player1 :: _ =>
    if s.players.isSubsetOf matched then
      let trackElapsed := (view player1).writtenTrackTime / 1000
      match s.mostRecentStreamEvent with
      -- the initial value `-1` has no field `event`
      | none => s.crash
      | some (.acquireStarted _) => s
      | some _ =>
        if trackElapsed ≠ s.lastReportedTrackElapsed then
          s.reportProgress trackElapsed (view player1) now
        else s
    else s

def handlePlayState : AudioState → StateThread τ
  | .paused => { s with audioState := .paused }.triggerUpdate .audioStateChange
  | .autostart => { s with audioState := .working }.triggerUpdate .audioStateChange
  | .starting | .playing => { s with audioState := .playing }.triggerUpdate .audioStateChange

def handlePlayEvent : PlayEvent τ → StateThread τ
  | .durationChange duration => { s with duration := some duration }.triggerUpdate .durationChange
  | .trackStarted trackInfo =>
    let s := { s with playState := .playing }
    match trackInfo with
    | some info => { s with trackInfo := some info }.triggerUpdate .trackStarted
    | none => s
  | .trackEnded =>
    let s := { s with playState := .stopped }.triggerUpdate .stopped
    match s.appUbusObj with
    | some app => s.request (.audioEnded app)
    | none => s

/-- The application that has acquired the distributor becomes the current one. -/
def acquiredBy (app : String) (s : StateThread τ) : StateThread τ :=
  if s.appUbusObj ≠ some app then
    { (s.setAppUbusObj app).request (.notifyAcquire (appName app)) with
      trackInfo := none }.triggerUpdate .trackStarted
  else s

def handleStreamEvent (e : StreamEvent τ) : StateThread τ :=
  let s := { s with mostRecentStreamEvent := some e }
  match e with
  | .acquireStarted app =>
    { s with
      lastReportedTrackElapsed := 0
      writtenTrackTimeBase := some 0
      trackElapsedSecsBase := some 0
      writtenTrackTime := some 0
      streambufUsed := some 0
      outputUsed := some 0
      trackElapsedSecs := some 0
      duration := some 0 }.acquiredBy app
  | .rebuffer =>
    { s with
      writtenTrackTimeBase := s.writtenTrackTime
      trackElapsedSecsBase := s.trackElapsedSecs }
  | _ => s

/-- The station as a message changes it; one with a blank method cannot be saved. -/
def Station.update (msg : StationMessage) (station : Station) : Station :=
  let station := { station with
    id := some msg.stationId
    name := some msg.stationName
    imageUrl := some msg.stationImageUrl }
  if msg.playStationMethod ≠ "" then
    { station with method := some msg.playStationMethod, args := some msg.playStationArgs }
  else station

def handleSetStation (msg : StationMessage) (s : StateThread τ) : StateThread τ :=
  let shown (s : StateThread τ) : StateThread τ :=
    match s.history with
    | none => s.crash
    | some history =>
      { s with historyShown := some (historyList history) }.triggerUpdate .stationChanged
  if msg.stationName ≠ "" then
    match s.station, s.history with
    | some station, some history =>
      let station := Station.update msg station
      shown { s with station := some station, history := some (addHistory station history) }
    | _, _ => s.crash
  else shown s

def handleSetTrackInfo [DecidableEq τ] (trackInfo : Option τ) (s : StateThread τ) :
    StateThread τ :=
  if s.trackInfo ≠ trackInfo then { s with trackInfo := trackInfo }.triggerUpdate .trackStarted
  else s

def historyReady (history : List Station) (s : StateThread τ) : StateThread τ :=
  { s with history := some history, historyShown := some (historyList history) }.triggerUpdate
    .historyUpdated

def step [DecidableEq τ] (s : StateThread τ) (input : StateInput τ) : Option (StateThread τ) :=
  if s.crashed then none
  else
    match input with
    | .players ps => some (s.handlePlayers ps)
    | .playerStates matched view now => some (s.handlePlayerStates matched view now)
    | .playState playState => some (s.handlePlayState playState)
    | .playEvent e => some (s.handlePlayEvent e)
    | .streamEvent e => some (s.handleStreamEvent e)
    | .setStation msg => some (s.handleSetStation msg)
    | .setTrackInfo trackInfo => some (s.handleSetTrackInfo trackInfo)
    | .currentApp app => some (s.setAppUbusObj app)
    | .historyTimer => some { s with history := some [] }
    | .historyReady stored => s.history.map fun history => s.historyReady (stored.getD history)

end StateThread

end BeepMusic.Distributor
