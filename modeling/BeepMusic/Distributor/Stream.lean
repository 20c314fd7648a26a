import BeepMusic.Distributor.Player
import BeepMusic.Lib.System

/-!
`stream_thread` of `distributor.lua` with `handle_stream_command`: it owns the
stream to the players, and answers the requests of the applications that feed
it. The thread is a machine with one program point for each place where it can
wait, and for each loop test; everybody else can act only while it waits.

`players_ch` is a sliding buffer for one set, and the two request channels are
unbounded queues. `set_track_volume_scalar` is left out.
-/

namespace BeepMusic.Distributor

open Lib

/-- The method of a request with the fields of `msg` that are read. -/
inductive Method (τ : Type)
  | acquire (app : String)
  | canTrackBegin
  | trackBegin (contentLength : ℤ) (trackInfo : Option τ) (audioType : String)
  | canBuffer (dataLen : ℤ)
  | buffer (data : List UInt8)
  | flush
  | trackEnd
  | other (name : String)
  deriving DecidableEq

/-- A request; `req` is the handle its reply goes to. -/
structure Request (τ : Type) where
  req : ℕ
  token : Option ℤ
  method : Method τ
  deriving DecidableEq

def Request.isAcquire {τ : Type} (r : Request τ) : Bool :=
  match r.method with
  | .acquire _ => true
  | _ => false

/-- `can_buffer` or `can_track_begin`. -/
def Request.isQuestion {τ : Type} (r : Request τ) : Bool :=
  match r.method with
  | .canBuffer _ | .canTrackBegin => true
  | _ => false

inductive ErrorCode
  | invalidToken
  | commandWouldBlock
  deriving DecidableEq

inductive Reply
  | success (token : Option ℤ)
  | error (message : String) (code : Option ErrorCode)
  deriving DecidableEq

/-- What `handle_stream_command` returns, apart from a player set. -/
inductive ThreadResult (τ : Type)
  | ok
  | acquire (command : Request τ)
  | flush
  | trackEnd
  | trackBegin
  | rebufferOk

/-- Where the thread is. -/
inductive Point (τ : Type)
  /-- The top of the stream loop. -/
  | top
  /-- The wait for players and an acquire. -/
  | waitAcquire
  /-- The check that `stream_command` is an acquire. -/
  | check
  /-- `stop_players`, with the players still to answer. -/
  | stopping (pending : List Player)
  /-- The wait of the track buffering loop. -/
  | trackLoop
  /-- The loop of `track_begin` or `buffer`, at its test or waiting, with the
  player set it has received last. -/
  | blocked (command : Request τ) (newPlayers : Option PlayerSet) (waiting : Bool)
  /-- The wait for the end of a rebuffer, with or without listening for
  commands. -/
  | rebuffering (listening : Bool)
  | exited
  deriving DecidableEq

/-- Whether the thread has yielded, so that others act. -/
def Point.yields {τ : Type} : Point τ → Bool
  | .top | .check | .exited => false
  | .blocked _ _ waiting => waiting
  | .waitAcquire | .stopping _ | .trackLoop | .rebuffering _ => true

/-- The thread: its locals, the channels it listens on, the players' states, and
what it has done. `taken` lists the requests taken from the channels and
`latestPlayers` is the last non-empty set taken; `arrivals` lists the commands
put since the acquire, or queued at it, and `effects` those carried out. -/
structure StreamThread (τ : Type) where
  point : Point τ
  ownerToken : Option ℤ
  cookie : ℤ
  players : PlayerSet
  streamCommand : Option (Request τ)
  canDefinitelyTrackBegin : Bool
  needRebuffer : Bool
  rebufferPlayers : PlayerSet
  rebufferAfterTrackEnd : Bool
  playersCh : Option PlayerSet
  acquireCh : List (Request τ)
  streamCommandCh : List (Request τ)
  playerStatesCh : Bool
  rebufferDoneCh : Bool
  debugCh : Bool
  playerState : Player → PlayerState
  replies : List (ℕ × Reply)
  streamEvents : List (StreamEvent τ)
  streamingPlayers : List PlayerSet
  cookies : List ℤ
  rebufferRequests : List (PlayerSet × ℤ)
  sends : List (Player × Send)
  issued : ℕ
  taken : List ℕ
  latestPlayers : PlayerSet
  arrivals : List (Request τ)
  effects : List (Request τ)

namespace StreamThread

variable {τ : Type}

def init : StreamThread τ where
  point := .top
  ownerToken := none
  cookie := 0
  players := .empty
  streamCommand := none
  canDefinitelyTrackBegin := false
  needRebuffer := false
  rebufferPlayers := .empty
  rebufferAfterTrackEnd := false
  playersCh := none
  acquireCh := []
  streamCommandCh := []
  playerStatesCh := false
  rebufferDoneCh := false
  debugCh := false
  playerState := fun _ => {}
  replies := []
  streamEvents := []
  streamingPlayers := []
  cookies := []
  rebufferRequests := []
  sends := []
  issued := 0
  taken := []
  latestPlayers := .empty
  arrivals := []
  effects := []

variable (s : StreamThread τ)

def goTo (point : Point τ) : StreamThread τ := { s with point := point }

variable (r : Request τ)

def reply (answer : Reply) : StreamThread τ :=
  { s with replies := s.replies ++ [(r.req, answer)] }

def putStreamEvent (e : StreamEvent τ) : StreamThread τ :=
  { s with streamEvents := s.streamEvents ++ [e] }

/-- Send to every player of the current set. -/
def sendAll (x : Send) : StreamThread τ :=
  { s with
    sends := s.sends ++ s.players.players.map fun p => (p, x)
    playerState := fun p => if p ∈ s.players then x.charge (s.playerState p) else s.playerState p }

/-- The effect of a command has been carried out. -/
def logEffect : StreamThread τ :=
  { s with effects := s.effects ++ [r] }

/-- `players_ch:take()` of the set `ps`. -/
def takePlayers (ps : PlayerSet) : StreamThread τ :=
  { s with playersCh := none, latestPlayers := if ps.isEmpty then s.latestPlayers else ps }

/-- Take the first request, `r`, and leave `rest`. -/
def takeAcquire (rest : List (Request τ)) : StreamThread τ :=
  { s with acquireCh := rest, taken := s.taken ++ [r.req] }

def takeCommand (rest : List (Request τ)) : StreamThread τ :=
  { s with streamCommandCh := rest, taken := s.taken ++ [r.req] }

def tokenValid : Bool :=
  decide (r.token = some 1234567 ∨ r.token = s.ownerToken)

/-- A player is new, or a new object for a known device. -/
def rebufferIsNeeded (players newPlayers : PlayerSet) : Bool :=
  newPlayers.players.any fun p => decide (players.lookup p.id ≠ some p)

/-- A new, non-empty player set: stream to it, or remember it for a rebuffer. -/
def adoptPlayers (ps : PlayerSet) : StreamThread τ :=
  if rebufferIsNeeded s.players ps then { s with needRebuffer := true, rebufferPlayers := ps }
  else
    { s with
      needRebuffer := false
      players := ps
      streamingPlayers := s.streamingPlayers ++ [ps] }

/-- `do_rebuffer` up to the wait. -/
def startRebuffer : StreamThread τ :=
  { s with
    cookie := s.cookie + 1
    players := s.rebufferPlayers
    streamingPlayers := s.streamingPlayers ++ [s.rebufferPlayers]
    streamEvents := s.streamEvents ++ [.rebuffer]
    rebufferRequests := s.rebufferRequests ++ [(s.rebufferPlayers, s.cookie + 1)]
    point := .rebuffering true }

def finishRebuffer : StreamThread τ :=
  let s := { s with rebufferDoneCh := false }
  let s := if s.rebufferAfterTrackEnd then s.putStreamEvent .trackEnd else s
  { s with needRebuffer := false, rebufferPlayers := .empty, point := .trackLoop }

def doFlush : StreamThread τ :=
  let s := { s with cookie := s.cookie + 1, cookies := s.cookies ++ [s.cookie + 1] }
  ((s.putStreamEvent .flush).sendAll (.flush s.cookie)).goTo .trackLoop

/-- The result of a command in the track buffering loop. -/
def handleResult : ThreadResult τ → StreamThread τ
  | .trackEnd =>
    let s := { s with rebufferAfterTrackEnd := true }
    if s.needRebuffer then s.startRebuffer else s.goTo .trackLoop
  | .rebufferOk => { s with rebufferAfterTrackEnd := false }.startRebuffer
  | .trackBegin =>
    { s with
      rebufferAfterTrackEnd := false
      canDefinitelyTrackBegin := false
      point := .trackLoop }
  | .acquire command =>
    { s with
      rebufferAfterTrackEnd := false
      streamCommand := some command
      -- the rebuffer that was due is made unnecessary by the acquire
      players := if s.needRebuffer then s.rebufferPlayers else s.players
      point := .top }
  | .flush => { s with rebufferAfterTrackEnd := false }.doFlush
  | .ok => { s with rebufferAfterTrackEnd := false, point := .trackLoop }

variable (newPlayers : Option PlayerSet)

/-- Back in the track buffering loop, with a player set received on the way. -/
def finishCommand (result : ThreadResult τ) : StreamThread τ :=
  match newPlayers with
  | none => s.handleResult result
  | some ps =>
    -- without players the result of the command is not looked at
    if ps.isEmpty then { s with players := .empty, point := .top }
    else (s.adoptPlayers ps).handleResult result

def wouldBlock (what : String) : Reply :=
  .error (what ++ " would block") (some .commandWouldBlock)

/-- `can_track_begin` and `can_buffer`: `fits` is the test of one player. -/
def answerCan (what : String) (immediately : Bool) (fits : PlayerState → Bool) : StreamThread τ :=
  if s.needRebuffer then
    (s.reply r (wouldBlock "track_begin")).finishCommand none .rebufferOk
  else if immediately || s.players.allVals (fun p => fits (s.playerState p)) then
    (s.reply r (.success none)).finishCommand none .ok
  else (s.reply r (wouldBlock what)).finishCommand none .ok

/-- Whether a player has room for a `track_begin` or a `buffer`. -/
def fits (p : Player) : Bool :=
  match r.method with
  | .trackBegin _ _ _ => playerCanTrackBegin (s.playerState p)
  | .buffer data => playerCanBuffer (s.playerState p) data.length
  | _ => true

/-- The part of `track_begin` and `buffer` after their loops. -/
def sendCommand : StreamThread τ :=
  match r.method with
  | .trackBegin _ _ audioType =>
    if audioType.length ≠ 1 ∧ s.players.isEmpty = false then s.goTo .exited
    else
      (((s.sendAll (.trackBegin audioType)).logEffect r).reply r (.success none)).finishCommand
        newPlayers .trackBegin
  | .buffer data =>
    ((((s.sendAll (.buffer data)).putStreamEvent (.buffer data)).logEffect r).reply r
      (.success none)).finishCommand newPlayers .ok
  | _ => s

/-- `handle_stream_command`, for a command that has been taken. -/
def handleStreamCommand : StreamThread τ :=
  if r.isAcquire then s.finishCommand none (.acquire r)
  else if s.tokenValid r = false then
    (s.reply r (.error "Invalid token" (some .invalidToken))).finishCommand none .ok
  else
    match r.method with
    | .canTrackBegin =>
      s.answerCan r "track_begin" s.canDefinitelyTrackBegin playerCanTrackBegin
    | .trackBegin contentLength trackInfo audioType =>
      let s := s.putStreamEvent (.trackBegin contentLength trackInfo audioType)
      if s.canDefinitelyTrackBegin then s.sendCommand r none
      else s.goTo (.blocked r none false)
    | .canBuffer dataLen => s.answerCan r "buffer" false fun st => playerCanBuffer st dataLen
    | .buffer _ => s.goTo (.blocked r none false)
    | .flush => ((s.logEffect r).reply r (.success none)).finishCommand none .flush
    | .trackEnd =>
      ((((s.sendAll .trackEnd).putStreamEvent .trackEnd).logEffect r).reply r
        (.success none)).finishCommand none .trackEnd
    | .acquire _ | .other _ =>
      (s.reply r (.error "Stream command sent out of sequence" none)).finishCommand none .ok

/-- `debug_ch` is the last channel of every outer wait. -/
def takeDebug : Option (StreamThread τ) :=
  if s.debugCh then some { s with debugCh := false } else none

def runTop : StreamThread τ :=
  if s.players.isEmpty then (s.putStreamEvent .waitingForAcquire).goTo .waitAcquire
  else s.goTo .check

def runWaitAcquire : Option (StreamThread τ) :=
  match s.playersCh, s.acquireCh, s.streamCommandCh with
  | some ps, _, _ => some { s.takePlayers ps with players := ps }
  | none, r :: rest, _ =>
    let s := { s.takeAcquire r rest with streamCommand := some r }
    if s.players.isEmpty then
      some (s.reply r (.error "Can't acquire when distributor has no players" none))
    else some (s.goTo .check)
  | none, [], r :: rest =>
    some ((s.takeCommand r rest).reply r (.error "Stream command invalid before acquire" none))
  | none, [], [] => s.takeDebug

/-- The acquire up to the wait of `stop_players`. -/
def startAcquire (app : String) : StreamThread τ :=
  let s :=
    { s with
      streamingPlayers := s.streamingPlayers ++ [s.players]
      cookie := s.cookie + 1
      cookies := s.cookies ++ [s.cookie + 1] }
  ((s.putStreamEvent (.acquireStarted app)).sendAll (.stop s.cookie)).goTo
    (.stopping s.players.players)

def runCheck : StreamThread τ :=
  match s.streamCommand.map Request.method with
  | some (.acquire app) => s.startAcquire app
  | _ => s.goTo .exited

/-- One answer to `stop`; a player that did stop is started again. -/
def stopResult (pending : List Player) (p : Player) (ok : Bool) : StreamThread τ :=
  let s := s.goTo (.stopping (pending.erase p))
  if ok then
    { s with
      sends := s.sends ++ [(p, .start)]
      playerState := Function.update s.playerState p (Send.start.charge (s.playerState p)) }
  else s

/-- All players have answered: the session with the new token begins. -/
def finishAcquire (token : ℤ) : StreamThread τ :=
  let s := { s.putStreamEvent .acquireDone with ownerToken := some token }
  let s :=
    match s.streamCommand with
    | some r => s.reply r (.success (some token))
    | none => s
  { s with
    canDefinitelyTrackBegin := true
    needRebuffer := false
    rebufferPlayers := .empty
    rebufferAfterTrackEnd := false
    point := .trackLoop
    arrivals := s.streamCommandCh
    effects := [] }

def runTrackLoop : Option (StreamThread τ) :=
  match s.playersCh, s.acquireCh, s.streamCommandCh with
  | some ps, _, _ =>
    let s := s.takePlayers ps
    if ps.isEmpty then some { s with players := .empty, point := .top }
    else
      let s := s.adoptPlayers ps
      if s.needRebuffer && s.rebufferAfterTrackEnd then some s.startRebuffer else some s
  | none, r :: rest, _ => some ((s.takeAcquire r rest).handleStreamCommand r)
  | none, [], r :: rest => some ((s.takeCommand r rest).handleStreamCommand r)
  | none, [], [] => s.takeDebug

/-- The test of the loop of `track_begin` or `buffer`. -/
def runBlockedTest : StreamThread τ :=
  if s.players.allVals (s.fits r) then s.sendCommand r newPlayers
  else s.goTo (.blocked r newPlayers true)

/-- The wait of that loop. The requester is told that all went well when the
command is given up. -/
def runBlockedWait : Option (StreamThread τ) :=
  match s.playersCh, s.acquireCh with
  | some ps, _ =>
    let s := s.takePlayers ps
    if ps.isEmpty then some ((s.reply r (.success none)).finishCommand (some ps) .ok)
    else some (s.goTo (.blocked r (some ps) false))
  | none, a :: rest =>
    some (((s.takeAcquire a rest).reply r (.success none)).finishCommand newPlayers (.acquire a))
  | none, [] =>
    if s.playerStatesCh then some ({ s with playerStatesCh := false }.goTo
      (.blocked r newPlayers false))
    else none

/-- The wait for the end of a rebuffer. A command that is not a question is put
back, behind everything that has arrived since. -/
def runRebuffering (listening : Bool) : Option (StreamThread τ) :=
  if s.rebufferDoneCh then some s.finishRebuffer
  else
    match (if listening then s.streamCommandCh else []) with
    | [] => s.takeDebug
    | r :: rest =>
      let s := s.takeCommand r rest
      if r.isQuestion then
        some (s.reply r (.error "would block during rebuffer" (some .commandWouldBlock)))
      else some { s with streamCommandCh := rest ++ [r], point := .rebuffering false }

end StreamThread

inductive StreamInput (τ : Type)
  /-- The thread goes on to its next program point; `token` is what
  `math.random` gives if it is called. -/
  | run (token : ℤ)
  | stopResult (p : Player) (ok : Bool)
  | players (ps : PlayerSet)
  | acquire (app : String)
  | command (token : Option ℤ) (method : Method τ)
  | playerStates
  | rebufferDone
  | debug
  /-- A player reports its state. -/
  | report (p : Player) (state : PlayerState)

namespace StreamThread

variable {τ : Type}

def run (s : StreamThread τ) (token : ℤ) : Option (StreamThread τ) :=
  match s.point with
  | .top => some s.runTop
  | .waitAcquire => s.runWaitAcquire
  | .check => some s.runCheck
  | .stopping [] => some (s.finishAcquire token)
  | .stopping (_ :: _) => none
  | .trackLoop => s.runTrackLoop
  | .blocked r newPlayers false => some (s.runBlockedTest r newPlayers)
  | .blocked r newPlayers true => s.runBlockedWait r newPlayers
  | .rebuffering listening => s.runRebuffering listening
  | .exited => none

/-- What the others do while the thread waits. -/
def environment (s : StreamThread τ) : StreamInput τ → Option (StreamThread τ)
  | .run _ => none
  | .stopResult p ok =>
    match s.point with
    | .stopping pending => if p ∈ pending then some (s.stopResult pending p ok) else none
    | _ => none
  | .players ps => some { s with playersCh := some ps }
  | .acquire app =>
    some { s with
      acquireCh := s.acquireCh ++ [⟨s.issued, none, .acquire app⟩]
      issued := s.issued + 1 }
  | .command token method =>
    let r : Request τ := ⟨s.issued, token, method⟩
    if r.isAcquire then none
    else some { s with
      streamCommandCh := s.streamCommandCh ++ [r]
      arrivals := s.arrivals ++ [r]
      issued := s.issued + 1 }
  | .playerStates => some { s with playerStatesCh := true }
  | .rebufferDone => some { s with rebufferDoneCh := true }
  | .debug => some { s with debugCh := true }
  | .report p state => some { s with playerState := Function.update s.playerState p state }

def step (s : StreamThread τ) : StreamInput τ → Option (StreamThread τ)
  | .run token => s.run token
  | input => if s.point.yields then s.environment input else none

end StreamThread

/-- The stream thread as a transition system. -/
def streamThread (τ : Type) : System (StreamThread τ) (StreamInput τ) where
  init := .init
  step := StreamThread.step

/-- An acquire with one player, up to the check. -/
def acquireInputs : List (StreamInput Unit) :=
  [.run 0, .players onePlayer, .run 0, .acquire "app", .run 0]

/-- The session that follows, with the token `7`. -/
def sessionInputs : List (StreamInput Unit) :=
  acquireInputs ++ [.run 0, .stopResult ⟨"p", 0⟩ true, .run 7]

end BeepMusic.Distributor
