import BeepMusic.Lib.System

/-!
The clients of the castchat server in `messages.c`. The mongoose threads run `ws_ready` and
`ws_data`, and the uloop thread runs `client_event_cb`, the timers and the methods for apps. What a
thread does while it holds a lock is one step. What the uloop thread does without the lock, the
read of a state and the write that follows, are steps of their own; `Pc` says where it is. A client
keeps its number after it has been removed.
-/

namespace BeepMusic.Castchat

open Lib

/-- `CL_STATE_NEW` and so on. -/
inductive ClState
  | new
  | connected
  | waitBind
  | bound
  | active
  | finalizing
  | destroyPending
  deriving DecidableEq

/-- `client_is_bound`: the state comes after `CL_STATE_WAIT_BIND`. -/
def ClState.isBound : ClState → Bool
  | new | connected | waitBind => false
  | bound | active | finalizing | destroyPending => true

/-- A websocket connection, by the address and the port of the other end. -/
structure Conn where
  remoteIp : ℕ
  remotePort : ℕ
  deriving DecidableEq

/-- `client_hash`, with a `long` of 32 bits. -/
def clientHash (conn : Conn) : ℕ := 17 * (5 + conn.remoteIp) * (5 + conn.remotePort) % 4294967296

structure Client where
  conn : Conn
  uuid : String
  userAgent : String
  appName : String
  state : ClState
  hash : ℕ
  pong : Bool
  /-- Whether the timers are set. -/
  tHello : Bool
  tPing : Bool
  tPong : Bool

namespace Client

variable (c : Client)

def setState (state : ClState) : Client := { c with state := state }

/-- The state is set, and the user agent. -/
def bind (userAgent : String) : Client :=
  { c with userAgent := userAgent, state := .bound }

def setPong (pong : Bool) : Client := { c with pong := pong }

def waitBind : Client := { c with tHello := true, state := .waitBind }

def activate : Client := { c with tHello := false, tPing := true, state := .active }

def cancelTimers : Client := { c with tHello := false, tPing := false, tPong := false }

def clearHello : Client := { c with tHello := false }

def clearPong : Client := { c with tPong := false }

/-- A ping has been sent, and the timers are set for the pong and the next ping. -/
def pinged : Client := { c with pong := false, tPong := true, tPing := true }

end Client

/-- A call to an app, made for the sender whose uuid it has. -/
structure AppCall where
  app : String
  sender : String
  /-- The user agent, or the namespace and the message. -/
  content : String ⊕ String × String
  deriving DecidableEq

/-- A call that has not returned, with the hash of the client and whether it is the first one. -/
structure Invoke where
  hash : ℕ
  hello : Bool
  call : AppCall
  deriving DecidableEq

/-- The header of a message, as far as it is read; `Content-Length` as `atoi` takes it. -/
structure Header where
  contentLength : Option Int
  nameSpace : Option String
  type : Option String
  userAgent : Option String

/-- What a mongoose thread reads. -/
inductive Frame
  | close
  | pong
  | noData
  /-- No end of the header, or an empty one. -/
  | noHeader
  /-- A message; the text is there if its end is found at the given length or behind it. -/
  | message (header : Header) (text : Option String)

/-- Where the uloop thread is. -/
inductive Pc
  | idle
  /-- In the loop of `client_event_cb`, with the clients that are to come. -/
  | scan (rest : List ℕ)
  | sawConnected (i : ℕ)
  | sawBound (i : ℕ)
  | sawFinalizing (i : ℕ)
  | destroying (i : ℕ)
  /-- In `hello_timeout_cb`. -/
  | sawUnbound (i : ℕ)
  deriving DecidableEq

structure Comm where
  client : ℕ → Client
  made : ℕ
  clientList : List ℕ
  /-- The value of `client_event_fd`, and the writes to it that are still to come. -/
  events : ℕ
  signals : ℕ
  invokes : List Invoke
  pc : Pc
  aborted : Bool

variable (s : Comm)

namespace Comm

def initial : Comm where
  client _ := ⟨⟨0, 0⟩, "", "", "", .new, 0, false, false, false, false⟩
  made := 0
  clientList := []
  events := 0
  signals := 0
  invokes := []
  pc := .idle
  aborted := false

def abort : Comm := { s with aborted := true }

def setClient (i : ℕ) (c : Client) : Comm :=
  { s with client := fun j => if j = i then c else s.client j }

def setPc (pc : Pc) : Comm := { s with pc := pc }

def addSignal : Comm := { s with signals := s.signals + 1 }

def addInvoke (invoke : Invoke) : Comm := { s with invokes := s.invokes ++ [invoke] }

def findClientByHash (hash : ℕ) : Option ℕ :=
  s.clientList.find? fun i => (s.client i).hash = hash

def findClient (senderId appId : String) : Option ℕ :=
  s.clientList.find? fun i => (s.client i).uuid = senderId ∧ (s.client i).appName = appId

/-- `unlock_client` fails if another client has been locked. -/
def unlockClient (locked : Option ℕ) (i : ℕ) : Comm :=
  if locked = some i then s else s.abort

def finalizeClient (i : ℕ) : Comm :=
  if (s.client i).state = .destroyPending then s
  else (s.setClient i ((s.client i).setState .finalizing)).addSignal

/-! ### Mongoose threads -/

def wsReady (conn : Conn) (uuid appName : String) (sessionId : Int) : Comm :=
  if sessionId ≤ 0 then s
  else
    { s.setClient s.made
        ⟨conn, uuid, "", appName, .connected, clientHash conn, false, false, false, false⟩ with
      made := s.made + 1
      clientList := s.made :: s.clientList
      signals := s.signals + 1 }

def msgMaxlen : Int := 65536

def controlNamespace : String := "castchat.org:control"

/-- A message of a client that is not bound must be the hello. -/
def wsHello (i : ℕ) (header : Header) (length : Int) (nameSpace : String) : Comm :=
  match header.type, header.userAgent with
  | some type, some userAgent =>
    if nameSpace ≠ controlNamespace ∨ length ≠ 0 ∨ type ≠ "Hello" then s.finalizeClient i
    else
      let c := s.client i
      (s.setClient i (c.bind userAgent)).addInvoke
        ⟨c.hash, true, ⟨c.appName, c.uuid, .inl userAgent⟩⟩
  | _, _ => s.finalizeClient i

def wsMessage (i : ℕ) (length : Int) (nameSpace : String) (text : Option String) : Comm :=
  if length < 1 ∨ msgMaxlen - 1 ≤ length then s.finalizeClient i
  else
    match text with
    | none => s.finalizeClient i
    | some text =>
      let c := s.client i
      s.addInvoke ⟨c.hash, false, ⟨c.appName, c.uuid, .inr (nameSpace, text)⟩⟩

/-- `ws_data` up to the place where the client is unlocked. -/
def wsData (conn : Conn) (frame : Frame) : Comm :=
  match s.findClientByHash (clientHash conn) with
  | none => s
  | some i =>
    match frame with
    | .close | .noData | .noHeader => s.finalizeClient i
    | .pong => s.setClient i ((s.client i).setPong true)
    | .message header text =>
      match header.contentLength, header.nameSpace with
      | none, _ => s.abort
      | some _, none => s.finalizeClient i
      | some length, some nameSpace =>
        if (s.client i).state.isBound then s.wsMessage i length nameSpace text
        else s.wsHello i header length nameSpace

/-- The rest of `client_invoke`, and of `ws_data` after the hello. -/
def invokeDone (invoke : Invoke) (failed : Bool) : Comm :=
  let s := if failed then
      match s.findClientByHash invoke.hash with
      | none => s
      | some i => s.finalizeClient i
    else s
  if invoke.hello then s.addSignal else s

/-! ### The uloop thread -/

/-- The next step of the uloop thread. -/
def uloop : Option Comm :=
  match s.pc with
  | .idle => none
  | .scan [] => some (s.setPc .idle)
  | .scan (i :: rest) =>
    some (s.setPc (match (s.client i).state with
      | .connected => .sawConnected i
      | .bound => .sawBound i
      | .finalizing => .sawFinalizing i
      | .new | .waitBind | .active | .destroyPending => .scan rest))
  | .sawConnected i =>
    match s.findClientByHash (s.client i).hash with
    | none => some (s.setPc .idle)
    | some j =>
      some (((s.setClient i (s.client i).waitBind).unlockClient (some j) i).setPc .idle)
  | .sawBound i => some ((s.setClient i (s.client i).activate).setPc .idle)
  | .sawFinalizing i =>
    some ((s.setClient i ((s.client i).setState .destroyPending)).setPc (.destroying i))
  | .destroying i =>
    some { s.setClient i (s.client i).cancelTimers with
      clientList := s.clientList.erase i, pc := .idle }
  | .sawUnbound i =>
    some (((s.finalizeClient i).unlockClient
      (s.findClientByHash (s.client i).hash) i).setPc .idle)

def helloTimeoutCb (i : ℕ) : Comm :=
  let s := s.setClient i (s.client i).clearHello
  if (s.client i).state.isBound then s else s.setPc (.sawUnbound i)

/-- `ping_cb`, with the timer set again. -/
def pingCb (i : ℕ) : Comm :=
  match s.findClientByHash (s.client i).hash with
  | none => s
  | some j => (s.setClient i (s.client i).pinged).unlockClient (some j) i

def pongCb (i : ℕ) : Comm :=
  let s := s.setClient i (s.client i).clearPong
  match s.findClientByHash (s.client i).hash with
  | none => s
  | some j =>
    (if (s.client i).pong then s else s.finalizeClient i).unlockClient (some j) i

def appClose (senderId appId : String) : Comm :=
  match s.findClient senderId appId with
  | none => s
  | some i => s.finalizeClient i

def appCloseAll (appId : String) : Comm :=
  (s.clientList.filter fun i => (s.client i).appName = appId).foldl finalizeClient s

end Comm

inductive CommEvent
  | wsReady (conn : Conn) (uuid appName : String) (sessionId : Int)
  | wsData (conn : Conn) (frame : Frame)
  | invokeDone (n : ℕ) (failed : Bool)
  /-- A write to `client_event_fd` that was to come. -/
  | signal
  | clientEvent
  | uloop
  | helloTimeout (i : ℕ)
  | pingTimeout (i : ℕ)
  | pongTimeout (i : ℕ)
  | appClose (senderId appId : String)
  | appCloseAll (appId : String)

namespace Comm

/-- The uloop thread begins something only if it is not in the middle of something. -/
def whenIdle (s s' : Comm) : Option Comm := if s.pc = .idle then some s' else none

def step (e : CommEvent) : Option Comm :=
  if s.aborted then none
  else
    match e with
    | .wsReady conn uuid appName sessionId => some (s.wsReady conn uuid appName sessionId)
    | .wsData conn frame => some (s.wsData conn frame)
    | .invokeDone n failed =>
      s.invokes[n]?.map fun invoke =>
        { s with invokes := s.invokes.eraseIdx n }.invokeDone invoke failed
    | .signal =>
      if s.signals = 0 then none
      else some { s with signals := s.signals - 1, events := s.events + 1 }
    | .clientEvent =>
      if s.events = 0 then none
      else s.whenIdle { s with events := s.events - 1, pc := .scan s.clientList }
    | .uloop => s.uloop
    | .helloTimeout i => if (s.client i).tHello then s.whenIdle (s.helloTimeoutCb i) else none
    | .pingTimeout i => if (s.client i).tPing then s.whenIdle (s.pingCb i) else none
    | .pongTimeout i => if (s.client i).tPong then s.whenIdle (s.pongCb i) else none
    | .appClose senderId appId => s.whenIdle (s.appClose senderId appId)
    | .appCloseAll appId => s.whenIdle (s.appCloseAll appId)

end Comm

/-- The castchat server, with every interleaving of its threads. -/
def comm : System Comm CommEvent where
  init := .initial
  step := Comm.step

end BeepMusic.Castchat
