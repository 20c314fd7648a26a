import Mathlib.Data.Rat.Floor
import Mathlib.Logic.Function.Basic
import BeepMusic.Distributor.Player
import BeepMusic.Lib.System

/-!
`buffer_thread` and `do_rebuffer` of `distributor.lua`. The thread keeps what the
stream thread has sent, as far as the players have not played it, and sends it
again to a changed set of players. A rebuffer is a machine of its own with one
program point for each wait, loop test and block of sends; while it runs the
thread takes nothing but player states. `size` of a buffer is the length of its
data.
-/

namespace BeepMusic.Distributor

open Lib

abbrev Data := List UInt8

def streambufSize : ℤ := 1 * 1024 * 1024
def maxExtraBuffer : ℤ := 500 * 1024

/-- `header_len`. -/
def headerLen (headers : List Data) : ℕ := (headers.map List.length).sum

/-- Where a rebuffer is. -/
inductive RebufferPoint
  /-- `stop_players`: the players still to answer, and those that failed. -/
  | stopping (pending failed : List Player)
  /-- The wait for the cookie, after some misses. -/
  | cookieWait (misses : ℕ)
  | trackBeginTest (misses : ℕ)
  | trackBeginWait (misses : ℕ)
  | trackBegin
  /-- The header buffers still to send. -/
  | headers (left : List Data)
  /-- The test of the first of the buffers still to send, or the end. -/
  | buffers (misses : ℕ) (left : List Data)
  /-- The wait for room for `data`. -/
  | bufferWait (misses : ℕ) (data : Data) (left : List Data)
  /-- `do_rebuffer` has returned. -/
  | done
  deriving DecidableEq

/-- A call of `do_rebuffer`, with what it has sent. -/
structure Rebuffer where
  point : RebufferPoint
  players : PlayerSet
  trackBegin : Option String
  headers : List Data
  buffers : List Data
  trackEnd : Bool
  sends : List (Player × Send)

/-- The thread: its locals, the call of `do_rebuffer` it is in, the players'
states, and what it has sent. `history` is what it has taken from
`stream_event_ch`; a halted thread is in an endless loop or has exited. -/
structure BufferThread (τ : Type) where
  players : PlayerSet
  trackBegin : Option String
  bufferedAmount : ℤ
  buffers : List Data
  headers : List Data
  trackEnd : Bool
  bitrate : ℤ
  saveHeader : Bool
  missedCookieCount : ℕ
  rebuffer : Option Rebuffer
  playerState : Player → PlayerState
  cookies : List ℤ
  streamingPlayers : List PlayerSet
  playerErrors : List Player
  rebufferDone : ℕ
  history : List (StreamEvent τ)
  halted : Bool

inductive BufferInput (τ : Type)
  | players (ps : PlayerSet)
  | playerStates (matched nonMatched : List String)
  | streamEvent (e : StreamEvent τ)
  | request (ps : PlayerSet) (cookie : ℤ)
  /-- A player reports its state. -/
  | report (p : Player) (state : PlayerState)
  | stopResult (p : Player) (stopped started : Bool)
  /-- The rebuffer goes on to its next program point; writing to the streams of
  the players `failed` fails. -/
  | run (failed : List Player)

/-- The eviction loop; `none` if it never ends. -/
def evict (playerAmount : ℚ) : List Data → ℤ → Option (List Data × ℤ)
  | [], amount => if playerAmount < amount then none else some ([], amount)
  | data :: rest, amount =>
    if playerAmount < amount then evict playerAmount rest (amount - data.length)
    else some (data :: rest, amount)

/-- What a player has not played yet, as an amount of compressed data. -/
def playerAmount (state : PlayerState) (bitrate : ℤ) : ℚ :=
  let uncompressedMillis := ⌊(state.outputUsed * 1000 : ℚ) / (44100 * 8)⌋
  let amount : ℚ := (streambufSize - state.streambufFree) +
    uncompressedMillis * bitrate * 1024 / (1000 * 8)
  if amount > streambufSize + maxExtraBuffer then streambufSize + maxExtraBuffer else amount

namespace BufferThread

variable {τ : Type}

def init : BufferThread τ where
  players := .empty
  trackBegin := none
  bufferedAmount := 0
  buffers := []
  headers := []
  trackEnd := false
  bitrate := 0
  saveHeader := false
  missedCookieCount := 0
  rebuffer := none
  playerState := fun _ => {}
  cookies := []
  streamingPlayers := []
  playerErrors := []
  rebufferDone := 0
  history := []
  halted := false

variable (s : BufferThread τ)

def halt : BufferThread τ := { s with halted := true }

def handlePlayerStates (matched : List String) : BufferThread τ :=
  if s.players.isSubsetOf matched = false then
    { s with missedCookieCount := s.missedCookieCount + 1 }
  else
    match s.players.players with
    | [] => s
    | player1 :: _ =>
      let state := s.playerState player1
      let bitrate := if s.trackBegin = some "o" then 320 else state.bitrate
      let s := { s with missedCookieCount := 0, bitrate := bitrate }
      match evict (playerAmount state bitrate) s.buffers s.bufferedAmount with
      | none => s.halt
      | some (buffers, amount) => { s with buffers := buffers, bufferedAmount := amount }

/-- A track begins, or an acquire forgets it. -/
def reset (trackBegin : Option String) : BufferThread τ :=
  { s with
    trackBegin := trackBegin
    buffers := []
    headers := []
    trackEnd := false
    bitrate := 0
    bufferedAmount := 0 }

def keepBuffer (data : Data) : BufferThread τ :=
  if s.saveHeader && decide (headerLen s.headers < 8192) then
    { s with headers := s.headers ++ [data] }
  else
    { s with
      saveHeader := false
      buffers := s.buffers ++ [data]
      bufferedAmount := s.bufferedAmount + data.length }

def handleStreamEvent (e : StreamEvent τ) : BufferThread τ :=
  let s := { s with history := s.history ++ [e] }
  match e with
  | .acquireStarted _ => s.reset none
  | .trackBegin _ _ audioType =>
    let s := s.reset (some audioType)
    if audioType = "o" then { s with saveHeader := true } else s
  | .buffer data => s.keepBuffer data
  | .flush => { s with buffers := [], bufferedAmount := 0 }
  | .trackEnd => { s with trackEnd := true }
  | .waitingForAcquire | .acquireDone | .rebuffer => s

/-- A rebuffer request: the first thing `do_rebuffer` does is to stop the
players of its copy of the table. -/
def startRebuffer (ps : PlayerSet) (cookie : ℤ) : BufferThread τ :=
  { s with
    cookies := s.cookies ++ [cookie]
    rebuffer := some
      { point := .stopping ps.players []
        players := ps
        trackBegin := s.trackBegin
        headers := s.headers
        buffers := s.buffers
        trackEnd := s.trackEnd
        sends := ps.players.map fun p => (p, .stop cookie) } }

/-- The thread at its `alts`. -/
def listen : BufferInput τ → Option (BufferThread τ)
  | .players ps => some { s with players := ps }
  | .playerStates matched _ => some (s.handlePlayerStates matched)
  | .streamEvent e => some (s.handleStreamEvent e)
  | .request ps cookie => some (s.startRebuffer ps cookie)
  | .report p state => some { s with playerState := Function.update s.playerState p state }
  | .stopResult _ _ _ => none
  | .run _ => none

end BufferThread

variable (rb : Rebuffer)

namespace Rebuffer

def goTo (point : RebufferPoint) : Rebuffer := { rb with point := point }

/-- `if table_length(players) == 0 then return end`. -/
def goToUnlessEmpty (point : RebufferPoint) : Rebuffer :=
  rb.goTo (if rb.players.isEmpty then .done else point)

def keep (pred : Player → Bool) : Rebuffer :=
  { rb with players := rb.players.filter pred }

/-- After the wait for the cookie. Without a track there is nothing to send. -/
def cookieMatched : Rebuffer :=
  rb.goToUnlessEmpty (if rb.trackBegin.isSome then .trackBeginTest 0 else .done)

/-- Send to every player, and drop those for which it failed. -/
def send (x : Send) (failed : List Player) : Rebuffer :=
  { rb with
    sends := rb.sends ++ rb.players.players.map fun p => (p, x)
    players := rb.players.filter fun p => p ∉ failed }

end Rebuffer

/-- Whether the call has yielded, so that players may report. -/
def RebufferPoint.yields : RebufferPoint → Bool
  | .stopping _ _ | .cookieWait _ | .trackBeginWait _ | .bufferWait _ _ _ => true
  | .trackBeginTest _ | .trackBegin | .headers _ | .buffers _ _ | .done => false

namespace BufferThread

variable {τ : Type} (s : BufferThread τ)

def inRebuffer : BufferThread τ :=
  { s with rebuffer := some rb }

/-- For each player that was dropped the table is put on `streaming_players_ch`;
whoever takes it sees it as it is after the last of them. -/
def publishDropped (before after : Rebuffer) : BufferThread τ :=
  { s with
    streamingPlayers := s.streamingPlayers ++
      List.replicate (before.players.players.length - after.players.players.length)
        after.players }

/-- `_on_error` of the players that do not pass the test. -/
def reportFull (test : Player → Bool) : BufferThread τ :=
  { s with playerErrors := s.playerErrors ++ rb.players.players.filter fun p => !test p }

/-- Send to the players of the rebuffer and go on with those that are left. -/
def sendPlayers (x : Send) (failed : List Player) (next : RebufferPoint) : BufferThread τ :=
  { s with
    playerState := fun p => if p ∈ rb.players then x.charge (s.playerState p) else s.playerState p
    rebuffer := some ((rb.send x failed).goToUnlessEmpty next) }

def canTrackBegin (p : Player) : Bool := playerCanTrackBegin (s.playerState p)

def canBuffer (data : Data) (p : Player) : Bool :=
  playerCanBuffer (s.playerState p) data.length

/-- One answer of `stop_players`; a stopped player is started again. -/
def stopResult (pending failed : List Player) (p : Player)
    (stopped started : Bool) : BufferThread τ :=
  let failed := if stopped && started then failed else failed ++ [p]
  let rb := rb.goTo (.stopping (pending.erase p) failed)
  if stopped then
    { s with
      playerState := Function.update s.playerState p (Send.start.charge (s.playerState p))
      rebuffer := some { rb with sends := rb.sends ++ [(p, .start)] } }
  else s.inRebuffer rb

/-- Player states during the wait for the cookie. -/
def cookieStates (misses : ℕ) (matched nonMatched : List String) : BufferThread τ :=
  if rb.players.isSubsetOf matched then s.inRebuffer rb.cookieMatched
  else
    let rb' := rb.keep fun p => p.id ∈ matched ∨ p.id ∈ nonMatched
    let s := s.publishDropped rb rb'
    if rb'.players.isEmpty then s.inRebuffer (rb'.goTo .done)
    else if misses + 1 ≥ 10 then
      s.inRebuffer (rb'.keep fun p => p.id ∈ matched).cookieMatched
    else s.inRebuffer (rb'.goTo (.cookieWait (misses + 1)))

/-- Player states during the wait for `track_begin`. -/
def trackBeginStates (misses : ℕ) (matched : List String) : BufferThread τ :=
  let rb' := rb.keep fun p => p.id ∈ matched
  let s := s.publishDropped rb rb'
  if rb'.players.isEmpty then s.inRebuffer (rb'.goTo .done)
  else if misses + 1 ≥ 10 then
    (s.reportFull rb' s.canTrackBegin).inRebuffer
      ((rb'.keep s.canTrackBegin).goToUnlessEmpty .trackBegin)
  else s.inRebuffer (rb'.goTo (.trackBeginTest (misses + 1)))

/-- Player states during the wait for room. -/
def bufferStates (misses : ℕ) (data : Data)
    (left : List Data) (matched : List String) : BufferThread τ :=
  let rb' := rb.keep fun p => p.id ∈ matched
  let s := s.publishDropped rb rb'
  let next := RebufferPoint.buffers (misses + 1) (data :: left)
  if rb'.players.isEmpty then s.inRebuffer (rb'.goTo .done)
  else if misses + 1 ≥ 30 then
    (s.reportFull rb' (s.canBuffer data)).inRebuffer
      ((rb'.keep (s.canBuffer data)).goToUnlessEmpty next)
  else s.inRebuffer (rb'.goTo next)

/-- The next block of a rebuffer that is not waiting. -/
def runRebuffer (failed : List Player) : Option (BufferThread τ) :=
  match rb.point with
  | .stopping [] notStopped =>
    some (s.inRebuffer ((rb.keep fun p => p ∉ notStopped).goToUnlessEmpty (.cookieWait 0)))
  | .stopping (_ :: _) _ => none
  | .cookieWait _ => none
  | .trackBeginTest misses =>
    some (s.inRebuffer (rb.goTo
      (if rb.players.allVals s.canTrackBegin then .trackBegin else .trackBeginWait misses)))
  | .trackBeginWait _ => none
  | .trackBegin =>
    match rb.trackBegin with
    | none => none
    | some audioType =>
      if audioType.length ≠ 1 then some s.halt
      else some (s.sendPlayers rb (.trackBegin audioType) failed (.headers rb.headers))
  | .headers [] => some (s.inRebuffer (rb.goTo (.buffers 0 rb.buffers)))
  | .headers (data :: left) => some (s.sendPlayers rb (.buffer data) failed (.headers left))
  | .buffers _ [] =>
    if rb.trackEnd then some (s.sendPlayers rb .trackEnd failed .done)
    else some (s.inRebuffer (rb.goTo .done))
  | .buffers misses (data :: left) =>
    if rb.players.allVals (s.canBuffer data) then
      some (s.sendPlayers rb (.buffer data) failed (.buffers 0 left))
    else some (s.inRebuffer (rb.goTo (.bufferWait misses data left)))
  | .bufferWait _ _ _ => none
  | .done => some { s with rebuffer := none, rebufferDone := s.rebufferDone + 1 }

/-- Player states are taken by whichever wait the rebuffer is in. -/
def rebufferStates (matched nonMatched : List String) : Option (BufferThread τ) :=
  match rb.point with
  | .cookieWait misses => some (s.cookieStates rb misses matched nonMatched)
  | .trackBeginWait misses => some (s.trackBeginStates rb misses matched)
  | .bufferWait misses data left => some (s.bufferStates rb misses data left matched)
  | _ => none

def rebufferStep : BufferInput τ → Option (BufferThread τ)
  | .run failed => s.runRebuffer rb failed
  | .playerStates matched nonMatched => s.rebufferStates rb matched nonMatched
  | .stopResult p stopped started =>
    match rb.point with
    | .stopping pending failed =>
      if p ∈ pending then some (s.stopResult rb pending failed p stopped started) else none
    | _ => none
  | .report p state =>
    if rb.point.yields then
      some { s with playerState := Function.update s.playerState p state }
    else none
  | .players _ | .streamEvent _ | .request _ _ => none

def step (input : BufferInput τ) : Option (BufferThread τ) :=
  if s.halted then none
  else
    match s.rebuffer with
    | none => s.listen input
    | some rb => s.rebufferStep rb input

end BufferThread

/-- The buffer thread as a transition system. -/
def bufferThread (τ : Type) : System (BufferThread τ) (BufferInput τ) where
  init := .init
  step := BufferThread.step

end BeepMusic.Distributor
