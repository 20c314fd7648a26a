import BeepMusic.Lib.System

/-!
`Device` of `lib/device.lua`: the connection to a remote device through the relay. Requests to
connect are numbered, and the relay answers them at any time. With every request the model notes
whether it has been superseded, by a disconnect or by a later request. The callbacks are of any
type; what one of them does to the connection is a list of calls.
-/

namespace BeepMusic.Devices

open Lib

/-- `M.DISCONNECTED` and so on. -/
inductive ConnState
  | disconnected
  | connecting
  | connected
  | disconnecting
  deriving DecidableEq

/-- A request to connect that has not been answered. -/
structure Attempt where
  seq : ℕ
  superseded : Bool
  deriving DecidableEq

def Attempt.supersede (a : Attempt) : Attempt := { a with superseded := true }

structure Interface (κ : Type) where
  allowUrelayControl : Bool
  state : ConnState
  /-- The callback for when the connection is there again. -/
  reconnect : Option κ
  connectedCb : Option κ
  disconnectedCb : Option κ
  /-- The number of requests to connect so far. -/
  connectSeq : ℕ
  attempts : List Attempt
  /-- The requests to disconnect that have not been answered. -/
  disconnects : ℕ
  /-- `os.exit` has been called. -/
  exited : Bool

namespace Interface

variable {κ : Type}

/-- Only an owner that does not take the relay for connected may control it. -/
def initial (isConnected : Bool) : Interface κ where
  allowUrelayControl := !isConnected
  state := if isConnected then .connected else .disconnected
  reconnect := none
  connectedCb := none
  disconnectedCb := none
  connectSeq := 0
  attempts := []
  disconnects := 0
  exited := false

variable (s : Interface κ)

def exit : Interface κ := { s with exited := true }

def connect (readyCb : Option κ) : Interface κ :=
  if ¬s.allowUrelayControl then s.exit
  else
    match s.state with
    | .connecting => { s with connectedCb := readyCb }
    | .disconnecting => { s with reconnect := readyCb }
    | .connected => s
    | .disconnected =>
      { s with
        state := .connecting
        connectSeq := s.connectSeq + 1
        connectedCb := readyCb
        attempts := s.attempts.map Attempt.supersede ++ [⟨s.connectSeq + 1, false⟩] }

def disconnect (doneCb : Option κ) : Interface κ :=
  if ¬s.allowUrelayControl then s.exit
  else
    match s.state with
    | .connected | .connecting =>
      { s with
        state := .disconnecting
        disconnectedCb := doneCb
        attempts := s.attempts.map Attempt.supersede
        disconnects := s.disconnects + 1 }
    | .disconnecting => { s with disconnectedCb := doneCb }
    | .disconnected => s

/-- A request to connect is answered. -/
def answered (seq : ℕ) : Interface κ :=
  { s with attempts := s.attempts.filter fun a => a.seq ≠ seq }

/-- The request `seq` was successful, and the callback is due. -/
def Connects (seq : ℕ) : Prop := s.state = .connecting ∧ s.connectSeq = seq
deriving Decidable

def onConnected (seq : ℕ) : Interface κ :=
  if s.Connects seq then { s with state := .connected, connectedCb := none } else s

/-- The relay has disconnected; the callback comes next. -/
def onDisconnected : Interface κ :=
  { s with state := .disconnected, disconnectedCb := none, disconnects := s.disconnects - 1 }

/-- The end of the answer to a disconnect. -/
def resume : Interface κ :=
  match s.reconnect with
  | some readyCb => { s with reconnect := none }.connect (some readyCb)
  | none => s

end Interface

/-- A call of the owner. -/
inductive InterfaceCall (κ : Type)
  | connect (readyCb : Option κ)
  | disconnect (doneCb : Option κ)

inductive InterfaceEvent (κ : Type)
  | call (c : InterfaceCall κ)
  | connectDone (seq : ℕ)
  /-- A request to connect has failed; the error handler makes the given calls. -/
  | connectFailed (seq : ℕ) (handler : List (InterfaceCall κ))
  /-- The disconnect is done; its callback makes the given calls. -/
  | disconnectDone (handler : List (InterfaceCall κ))
  | disconnectFailed

namespace Interface

variable {κ : Type}

def perform (s : Interface κ) : InterfaceCall κ → Interface κ
  | .connect readyCb => s.connect readyCb
  | .disconnect doneCb => s.disconnect doneCb

def performAll (s : Interface κ) (calls : List (InterfaceCall κ)) : Interface κ :=
  calls.foldl perform s

def step (s : Interface κ) (e : InterfaceEvent κ) : Option (Interface κ) :=
  if s.exited then none
  else
    match e with
    | .call c => some (s.perform c)
    | .connectDone seq =>
      if s.attempts.any fun a => a.seq = seq then some ((s.answered seq).onConnected seq)
      else none
    | .connectFailed seq handler =>
      if s.attempts.any fun a => a.seq = seq then
        some (((s.answered seq).performAll handler).disconnect none)
      else none
    | .disconnectDone handler =>
      if s.disconnects = 0 then none
      else
        let calls := if s.disconnectedCb.isSome then handler else []
        some (s.onDisconnected.performAll calls).resume
    | .disconnectFailed => if s.disconnects = 0 then none else some s.exit

end Interface

/-- A connection, with calls of the owner and answers of the relay in any order. -/
def interface (κ : Type) (isConnected : Bool) : System (Interface κ) (InterfaceEvent κ) where
  init := .initial isConnected
  step := Interface.step

end BeepMusic.Devices
