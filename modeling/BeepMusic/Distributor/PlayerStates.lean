import BeepMusic.Distributor.Player
import BeepMusic.Lib.System

/-!
`player_states_thread` of `distributor_players.lua`, with the threads that set
cookies and the devices it polls. Whenever its timeout expires the thread asks
every player for its state and collects as many replies as it asked for; the
message it then publishes tells which players have the cookie that the thread
knows. Calls and flushes are in flight until a device executes them, in any
order, and so are the replies to a poll.
-/

namespace BeepMusic.Distributor

open Lib

/-- The orders that set the cookie of a device. -/
inductive CookieOrder
  | stop (cookie : ℤ)
  | flush (cookie : ℤ)
  deriving DecidableEq

def CookieOrder.setCookie : CookieOrder → ℤ
  | .stop cookie | .flush cookie => cookie

/-- A device: the orders it has executed since `Player:_init2` set its cookie to
`-2`. A report is the device as it was when it answered. -/
structure DeviceState where
  executed : List CookieOrder
  deriving DecidableEq

namespace DeviceState

def cookie (d : DeviceState) : ℤ := (d.executed.getLast?.map CookieOrder.setCookie).getD (-2)

def execute (d : DeviceState) (o : CookieOrder) : DeviceState := ⟨d.executed ++ [o]⟩

end DeviceState

/-- A `get_state` call of one polling cycle, and the device's answer once it is on
its way back. -/
structure Poll where
  cycle : ℕ
  player : Player
  answer : Option DeviceState

/-- A message on `player_states_ch`. In the source it has the ids only; here each
player comes with the report that was compared. `latest` is the last cookie that
had been put on `cookie_ch`. -/
structure StatesMessage where
  matched : List (Player × DeviceState)
  nonMatched : List (Player × DeviceState)
  latest : Option ℤ

/-- The locals of a polling cycle. `left` counts the iterations that are left, and
`none` on `stateCh` is the `false` of a failed call. -/
structure Cycle where
  number : ℕ
  left : ℕ
  stateCh : List (Option String)
  matched : List (Player × DeviceState)
  nonMatched : List (Player × DeviceState)

/-- The thread (`players`, `cookie` and, past the timeout, `cycle`), its channels,
the cookies of the stream thread and the buffer thread, and what is in flight. -/
structure StatesThread where
  players : PlayerSet
  cookie : ℤ
  cycle : Option Cycle
  cycles : ℕ
  playersCh : Option PlayerSet
  cookieCh : Option ℤ
  debugCh : ℕ
  /-- `player.state`. -/
  state : Player → DeviceState
  /-- `cookie` of the stream thread. -/
  streamCookie : ℤ
  rebufferRequestCh : Option (PlayerSet × ℤ)
  /-- The stream thread waits for `rebuffer_done_ch`. -/
  rebuffering : Bool
  orders : List (Player × CookieOrder)
  polls : List Poll
  device : String → DeviceState
  latest : Option ℤ
  messages : List StatesMessage

inductive StatesInput
  | players (ps : PlayerSet)
  | debug
  /-- The stream thread starts an acquire, flushes, or asks for a rebuffer. -/
  | acquire (ps : PlayerSet)
  | flush (ps : PlayerSet)
  | requestRebuffer (ps : PlayerSet)
  /-- The buffer thread takes the request, and is done with it. -/
  | rebuffer
  | rebufferDone
  /-- A new player object stops its device. -/
  | connect (p : Player)
  /-- A device executes an order. -/
  | execute (n : ℕ)
  /-- A device answers a poll; the answer arrives; the call fails. -/
  | answer (n : ℕ)
  | deliver (n : ℕ)
  | fail (n : ℕ)
  /-- The timeout expires; the players `failed` have an error. -/
  | timeout (failed : List Player)
  /-- The thread goes on with the first of its channels that has a value. -/
  | run

namespace StatesThread

def init : StatesThread where
  players := .empty
  cookie := -1
  cycle := none
  cycles := 0
  playersCh := none
  cookieCh := none
  debugCh := 0
  state := fun _ => ⟨[]⟩
  streamCookie := 0
  rebufferRequestCh := none
  rebuffering := false
  orders := []
  polls := []
  device := fun _ => ⟨[]⟩
  latest := none
  messages := []

variable (s : StatesThread)

/-- `cookie_ch:put(cookie)`. The channel slides, so an older cookie is lost. -/
def putCookie (cookie : ℤ) : StatesThread :=
  { s with cookieCh := some cookie, latest := some cookie }

def sendOrders (o : CookieOrder) (ps : PlayerSet) : StatesThread :=
  { s with orders := s.orders ++ ps.players.map fun p => (p, o) }

/-- An acquire or a flush of the stream thread: the new cookie, then the orders. -/
def nextCookie (order : ℤ → CookieOrder) (ps : PlayerSet) : StatesThread :=
  let cookie := s.streamCookie + 1
  ({ s with streamCookie := cookie }.putCookie cookie).sendOrders (order cookie) ps

def requestRebuffer (ps : PlayerSet) : StatesThread :=
  { s with
    streamCookie := s.streamCookie + 1
    rebufferRequestCh := some (ps, s.streamCookie + 1)
    rebuffering := true }

def takeRequest (ps : PlayerSet) (cookie : ℤ) : StatesThread :=
  ({ s with rebufferRequestCh := none }.putCookie cookie).sendOrders (.stop cookie) ps

def execute (n : ℕ) (p : Player) (o : CookieOrder) : StatesThread :=
  { s with
    orders := s.orders.eraseIdx n
    device := Function.update s.device p.id ((s.device p.id).execute o) }

def answer (s : StatesThread) (n : ℕ) (q : Poll) : StatesThread :=
  { s with polls := s.polls.set n { q with answer := some (s.device q.player.id) } }

/-- A put on the `state_ch` of a cycle. That of an earlier cycle is read by nobody. -/
def putState (number : ℕ) (id : Option String) : StatesThread :=
  { s with
    cycle := s.cycle.map fun cyc =>
      if cyc.number = number then { cyc with stateCh := cyc.stateCh ++ [id] } else cyc }

/-- `on_player_event`, and the success callback of `update_player_state`. -/
def deliver (n : ℕ) (q : Poll) (d : DeviceState) : StatesThread :=
  { s with
    polls := s.polls.eraseIdx n
    state := Function.update s.state q.player d }.putState q.cycle (some q.player.id)

def failPoll (n : ℕ) (q : Poll) : StatesThread :=
  { s with polls := s.polls.eraseIdx n }.putState q.cycle none

/-- The timeout branch, up to the wait for the replies. A player with an error
fails at once. -/
def startCycle (failed : List Player) : StatesThread :=
  let asked := s.players.players.filter fun p => p ∉ failed
  { s with
    cycles := s.cycles + 1
    polls := s.polls ++ asked.map fun p => ⟨s.cycles, p, none⟩
    cycle :=
      if s.players.isEmpty then none
      else some
        { number := s.cycles
          left := s.players.players.length
          stateCh := (s.players.players.filter fun p => p ∈ failed).map fun _ => none
          matched := []
          nonMatched := [] } }

/-- The body of the collecting loop for one reply. -/
def sortReply (cyc : Cycle) (id : Option String) : Cycle :=
  -- `false`, or an id that the table does not have, is in neither list
  match id.bind s.players.lookup with
  | none => cyc
  | some p =>
    if (s.state p).cookie = s.cookie then
      { cyc with matched := cyc.matched ++ [(p, s.state p)] }
    else { cyc with nonMatched := cyc.nonMatched ++ [(p, s.state p)] }

/-- `player_states_ch:put`, which ends the cycle. -/
def publish (cyc : Cycle) : StatesThread :=
  { s with
    cycle := none
    messages := s.messages ++ [⟨cyc.matched, cyc.nonMatched, s.latest⟩] }

/-- A reply has been sorted; after the last one the message is published. -/
def collected (cyc : Cycle) : StatesThread :=
  if cyc.left ≤ 1 then s.publish cyc
  else { s with cycle := some { cyc with left := cyc.left - 1 } }

/-- `players = players_ch:take()`, which also aborts a cycle. -/
def takePlayers (ps : PlayerSet) : StatesThread :=
  { s with players := ps, playersCh := none, cycle := none }

def takeCookie (cookie : ℤ) : StatesThread :=
  { s with cookie := cookie, cookieCh := none }

/-- `alts({state_ch, players_ch})`. -/
def collect (cyc : Cycle) : Option StatesThread :=
  -- `cookie_ch` is not looked at until the cycle is over
  match cyc.stateCh with
  | id :: rest => some (s.collected (s.sortReply { cyc with stateCh := rest } id))
  | [] => s.playersCh.map s.takePlayers

/-- `alts({players_ch, cookie_ch, debug_ch, timeout})`, without the timeout. -/
def listen : Option StatesThread :=
  match s.playersCh with
  | some ps => some (s.takePlayers ps)
  | none =>
    match s.cookieCh with
    | some cookie => some (s.takeCookie cookie)
    | none => if s.debugCh = 0 then none else some { s with debugCh := s.debugCh - 1 }

/-- Whether the timeout can be what `alts` returns. -/
def idle : Bool :=
  s.cycle.isNone && s.playersCh.isNone && s.cookieCh.isNone && s.debugCh == 0

def step : StatesInput → Option StatesThread
  | .players ps => some { s with playersCh := some ps }
  | .debug => some { s with debugCh := s.debugCh + 1 }
  -- while it waits for a rebuffer the stream thread carries out no command
  | .acquire ps => if s.rebuffering then none else some (s.nextCookie .stop ps)
  | .flush ps => if s.rebuffering then none else some (s.nextCookie .flush ps)
  | .requestRebuffer ps => if s.rebuffering then none else some (s.requestRebuffer ps)
  | .rebuffer => s.rebufferRequestCh.map fun (ps, cookie) => s.takeRequest ps cookie
  | .rebufferDone =>
    if s.rebuffering && s.rebufferRequestCh.isNone then some { s with rebuffering := false }
    else none
  | .connect p => some { s with orders := s.orders ++ [(p, .stop (-2))] }
  | .execute n => s.orders[n]?.map fun (p, o) => s.execute n p o
  | .answer n => (s.polls[n]?.filter fun q => q.answer.isNone).map (s.answer n)
  | .deliver n => s.polls[n]?.bind fun q => q.answer.map (s.deliver n q)
  | .fail n => s.polls[n]?.map (s.failPoll n)
  | .timeout failed => if s.idle then some (s.startCycle failed) else none
  | .run =>
    match s.cycle with
    | some cyc => s.collect cyc
    | none => s.listen

end StatesThread

/-- The player states thread and what it runs with, as a transition system. -/
def statesThread : System StatesThread StatesInput where
  init := .init
  step := StatesThread.step

end BeepMusic.Distributor
