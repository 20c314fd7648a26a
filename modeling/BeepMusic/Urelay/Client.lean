import BeepMusic.Lib.File
import BeepMusic.Lib.System

/-!
The client side of `urelay`: the connections to other relays, the ubus requests that wait for a
connection, and the calls that have been sent on and wait for a reply. Requests are numbered in the
order in which they come. A client that has been made keeps its number, and with each call the
model notes the client it was sent to, which the code does not.
-/

namespace BeepMusic.Urelay

open Lib

/-- The attributes of a message that is passed on, as they stand in the blob. -/
abbrev Msg := List Bytes

def beepUbusError : ℕ := 0

def beepUbusErrorArgs : ℕ := 10000

inductive Reply
  | success
  | connected (value : Bool)
  | ids (ids : List String)
  /-- A result that has come from another relay, and an error. -/
  | result (msg : Msg)
  | remoteError (text : Bytes) (code : ℕ)
  | error (text : String) (code : ℕ)
  deriving DecidableEq

/-- What is sent as a ubus event. -/
inductive Sent
  | deviceError (id ip : String) (port : ℕ)
  | relayed (type : Bytes) (id : String) (msg : Msg)
  deriving DecidableEq

/-- How the process ends. -/
inductive Fault
  /-- An attribute is read that is not there. -/
  | nullAttr
  /-- The call that a reply is for is not in `ri_list`. -/
  | noRequest
  | abort
  | exit
  deriving DecidableEq

structure OutgoingClient where
  serial : ℕ
  ip : String
  port : ℕ
  id : String
  isConnected : Bool
  connectRequestList : List ℕ
  deriving DecidableEq

structure RemoteInvoke where
  id : ℕ
  defReq : ℕ
  client : ℕ
  deriving DecidableEq

/-- A request is complete, with the reply and the status. -/
structure Answer where
  req : ℕ
  reply : Reply
  status : ℕ
  deriving DecidableEq

structure Relay where
  ocList : List OutgoingClient
  riList : List RemoteInvoke
  msgId : ℕ
  issued : ℕ
  completed : List Answer
  /-- The number of clients that have been made. -/
  serials : ℕ
  sent : List Sent
  fault : Option Fault
  deriving DecidableEq

variable (oc : OutgoingClient)

namespace OutgoingClient

def addConnectRequest (req : ℕ) : OutgoingClient :=
  { oc with connectRequestList := req :: oc.connectRequestList }

def setConnected : OutgoingClient := { oc with isConnected := true }

end OutgoingClient

/-- What the attempt to make a socket comes to. -/
inductive Socket
  | failed
  | noDelayFailed
  | opened
  deriving DecidableEq

variable (s : Relay)

namespace Relay

def initial : Relay where
  ocList := []
  riList := []
  msgId := 0
  issued := 0
  completed := []
  serials := 0
  sent := []
  fault := none

def fail (fault : Fault) : Relay := { s with fault := some fault }

def complete (req : ℕ) (reply : Reply) (status : ℕ) : Relay :=
  { s with completed := s.completed ++ [⟨req, reply, status⟩] }

/-- Reply to the request that is being handled and return, which completes it. -/
def reply (s : Relay) (reply : Reply) : Relay :=
  { s with issued := s.issued + 1 }.complete s.issued reply 0

def lookupRequest (id : ℕ) : Option RemoteInvoke := s.riList.find? fun ri => ri.id = id

def addRemoteInvoke (ri : RemoteInvoke) : Relay := { s with riList := ri :: s.riList }

/-- `pop_remote_invoke`, if the call is there. -/
def popRemoteInvoke (ri : RemoteInvoke) : Relay :=
  { s with riList := s.riList.erase ri }

def lookupClient (id : String) : Option OutgoingClient :=
  s.ocList.find? fun oc => oc.id = id

def addOutgoingClient : Relay :=
  { s with ocList := oc :: s.ocList }

def delOutgoingClient : Relay :=
  if (s.lookupClient oc.id).isSome then
    { s with ocList := s.ocList.filter fun x => x.serial ≠ oc.serial }
  else s

def updateClient : Relay :=
  { s with ocList := s.ocList.map fun x => if x.serial = oc.serial then oc else x }

/-! ### Replies and events of other relays -/

def handleResponse (id : Option ℕ) (msg : Option Msg) : Except Fault Relay :=
  match id with
  | none => .error .nullAttr
  | some id =>
    match s.lookupRequest id with
    | none => .error .noRequest
    | some ri => .ok ((s.popRemoteInvoke ri).complete ri.defReq (.result (msg.getD [])) 0)

def handleError (id : Option ℕ) (errorMsg : Option Bytes) (code : Option ℕ) : Except Fault Relay :=
  match id, errorMsg, code with
  | some id, some text, some code =>
    match s.lookupRequest id with
    | none => .error .noRequest
    | some ri => .ok ((s.popRemoteInvoke ri).complete ri.defReq (.remoteError text code) 0)
  | _, _, _ => .error .nullAttr

variable {s s' : Relay}

/-- `handle_event`, with the events that ubus accepts. -/
def handleEvent (s : Relay) (accepts : Sent → Bool) (oc : OutgoingClient) (type : Option Bytes)
    (msg : Option Msg) : Except Fault Relay :=
  match type, msg with
  | some type, some msg =>
    let event := Sent.relayed type oc.id msg
    if accepts event then .ok { s with sent := s.sent ++ [event] } else .error .abort
  | _, _ => .error .nullAttr

/-! What the handlers do if they come to an end: a call is answered, or an event is sent. -/

theorem lookupRequest_mem {id : ℕ} {ri : RemoteInvoke} (h : s.lookupRequest id = some ri) :
    ri ∈ s.riList := List.mem_of_find?_eq_some h

theorem handleResponse_ok {id : Option ℕ} {msg : Option Msg}
    (hok : s.handleResponse id msg = .ok s') :
    ∃ ri ∈ s.riList, ∃ reply, s' = (s.popRemoteInvoke ri).complete ri.defReq reply 0 := by
  unfold Relay.handleResponse at hok
  split at hok
  · cases hok
  · split at hok
    · cases hok
    · rename_i ri hlookup
      exact ⟨ri, lookupRequest_mem hlookup, _, (Except.ok.inj hok).symm⟩

theorem handleError_ok {id : Option ℕ} {errorMsg : Option Bytes} {code : Option ℕ}
    (hok : s.handleError id errorMsg code = .ok s') :
    ∃ ri ∈ s.riList, ∃ reply, s' = (s.popRemoteInvoke ri).complete ri.defReq reply 0 := by
  unfold Relay.handleError at hok
  split at hok
  · split at hok
    · cases hok
    · rename_i ri hlookup
      exact ⟨ri, lookupRequest_mem hlookup, _, (Except.ok.inj hok).symm⟩
  · cases hok

theorem handleEvent_ok {accepts : Sent → Bool} {oc : OutgoingClient} {type : Option Bytes}
    {msg : Option Msg} (hok : s.handleEvent accepts oc type msg = .ok s') :
    ∃ event, s' = { s with sent := s.sent ++ [event] } := by
  unfold Relay.handleEvent at hok
  split at hok
  · dsimp only at hok
    split at hok
    · exact ⟨_, (Except.ok.inj hok).symm⟩
    · cases hok
  · cases hok

/-! ### Connections -/

def outClientStateCb (s : Relay) (oc : OutgoingClient) (eof writeError : Bool) : Relay :=
  if eof || writeError then
    let s := s.delOutgoingClient oc
    { s with sent := s.sent ++ [.deviceError oc.id oc.ip oc.port] }
  else s

/-- Complete the requests that wait for a connection. -/
def completeAll (s : Relay) (reqs : List ℕ) (reply : Reply) (status : ℕ) : Relay :=
  reqs.foldl (fun s req => s.complete req reply status) s

def uloopConnectFdReadyCb (s : Relay) (oc : OutgoingClient) (error : Bool) : Relay :=
  if error then
    (s.completeAll oc.connectRequestList (.error "Connect failed" beepUbusError)
      beepUbusError).delOutgoingClient oc
  else (s.updateClient oc.setConnected).completeAll oc.connectRequestList .success 0

/-! ### Methods -/

def urelayPort : ℕ := 29418

/-- Defer the request that is being handled, until the connection is there. -/
def deferConnect (s : Relay) (oc : OutgoingClient) : Relay :=
  { s with issued := s.issued + 1 }.updateClient (oc.addConnectRequest s.issued)

def newClient (s : Relay) (ip id : String) (port : ℕ) : OutgoingClient :=
  ⟨s.serials, ip, port % 65536, id, false, []⟩

def relayConnect (s : Relay) (ip id : Option String) (port : Option ℕ) (socket : Socket) : Relay :=
  match ip, id with
  | none, _ => s.reply (.error "Invalid/missing ip address" beepUbusErrorArgs)
  | some _, none => s.reply (.error "Missing ID" beepUbusErrorArgs)
  | some ip, some id =>
    match s.lookupClient id with
    | some oc => if oc.isConnected then s.reply .success else s.deferConnect oc
    | none =>
      match socket with
      | .failed => s.reply (.error "Couldn't create socket" beepUbusError)
      | .noDelayFailed => s.fail .exit
      | .opened =>
        let oc := s.newClient ip id (port.getD urelayPort)
        deferConnect { s.addOutgoingClient oc with serials := s.serials + 1 } oc

def relayDisconnect (s : Relay) (id : Option String) : Relay :=
  match id with
  | none => s.reply (.error "Must supply ID" beepUbusErrorArgs)
  | some id =>
    match s.lookupClient id with
    | none => s.reply .success
    | some oc => (s.delOutgoingClient oc).reply .success

def relayIsRegistered (s : Relay) (id : Option String) : Relay :=
  match id with
  | none => s.reply (.error "Must supply ID" beepUbusErrorArgs)
  | some id => s.reply (.connected (s.lookupClient id).isSome)

def relayListRegistered (s : Relay) : Relay := s.reply (.ids (s.ocList.map OutgoingClient.id))

def ustreamBufSize : ℕ := 1024 * 32

/-- The next call gets another number. -/
def nextMsgId (s : Relay) : Relay := { s with msgId := (s.msgId + 1) % 4294967296 }

/-- `relay_invoke`; the blob that is sent has `rawLen` bytes, and writing it gives `wr`. -/
def relayInvoke (s : Relay) (id path method : Option String) (rawLen : ℕ) (wr : Int) : Relay :=
  match id with
  | none => s.reply (.error "Invalid/missing ID" beepUbusErrorArgs)
  | some id =>
    match s.lookupClient id with
    | none => s.reply (.error "Host not connected" beepUbusError)
    | some oc =>
      if ¬oc.isConnected then s.reply (.error "Host not connected" beepUbusError)
      else if path.isNone || method.isNone then
        s.reply (.error "Missing path and/or method parameters" beepUbusErrorArgs)
      else if ustreamBufSize ≤ rawLen then s.fail .abort
      else if wr ≤ 0 then s.nextMsgId.reply (.error "Couldn't write to server" beepUbusError)
      else
        { s.nextMsgId with issued := s.issued + 1 }.addRemoteInvoke
          ⟨s.msgId, s.issued, oc.serial⟩

end Relay

inductive RelayEvent
  | connect (ip id : Option String) (port : Option ℕ) (socket : Socket)
  | disconnect (id : Option String)
  | isRegistered (id : Option String)
  | listRegistered
  | invoke (id path method : Option String) (rawLen : ℕ) (wr : Int)
  | connectReady (client : ℕ) (error : Bool)
  | state (client : ℕ) (eof writeError : Bool)
  | response (client : ℕ) (id : Option ℕ) (msg : Option Msg)
  | error (client : ℕ) (id : Option ℕ) (errorMsg : Option Bytes) (code : Option ℕ)
  | event (client : ℕ) (type : Option Bytes) (msg : Option Msg)

namespace Relay

/-- The client with a number, if it is there and in the given state of connection. -/
def getClient (client : ℕ) (connected : Bool) : Option OutgoingClient :=
  s.ocList.find? fun oc => oc.serial = client ∧ oc.isConnected = connected

def orFail : Except Fault Relay → Relay
  | .ok s' => s'
  | .error fault => s.fail fault

def step (accepts : Sent → Bool) (s : Relay) (e : RelayEvent) : Option Relay :=
  if s.fault.isSome then none
  else
    match e with
    | .connect ip id port socket => some (s.relayConnect ip id port socket)
    | .disconnect id => some (s.relayDisconnect id)
    | .isRegistered id => some (s.relayIsRegistered id)
    | .listRegistered => some s.relayListRegistered
    | .invoke id path method rawLen wr => some (s.relayInvoke id path method rawLen wr)
    | .connectReady client error =>
      (s.getClient client false).map fun oc => s.uloopConnectFdReadyCb oc error
    | .state client eof writeError =>
      (s.getClient client true).map fun oc => s.outClientStateCb oc eof writeError
    | .response client id msg =>
      (s.getClient client true).map fun _ => s.orFail (s.handleResponse id msg)
    | .error client id errorMsg code =>
      (s.getClient client true).map fun _ => s.orFail (s.handleError id errorMsg code)
    | .event client type msg =>
      (s.getClient client true).map fun oc => s.orFail (s.handleEvent accepts oc type msg)

end Relay

/-- The relay, with calls, replies and losses of connections in any order. -/
def relay (accepts : Sent → Bool) : System Relay RelayEvent where
  init := .initial
  step := Relay.step accepts

end BeepMusic.Urelay
