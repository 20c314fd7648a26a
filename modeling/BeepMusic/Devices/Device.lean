import BeepMusic.Devices.Interface

/-!
`Device` of `beepmanager_device.lua`: a remote device, the interfaces under which it has been
discovered, and the confirmation that it is there. An interface keeps its number when it is
moved in the list or taken from it, so that a late answer can still be told to it. With each
confirm request the model notes the connection it was made over, and with each change to `READY`
the reply that led to it.
-/

namespace BeepMusic.Devices

open Lib

/-- `M.INIT` and so on. -/
inductive DeviceState
  | init
  | connecting
  | confirming
  | confirmingTransient
  | ready
  | dead
  deriving DecidableEq

/-- An interface, with the private fields that the device adds. -/
structure DeviceInterface where
  conn : Interface Unit
  ip : String
  port : ℕ
  serviceInfo : String
  haveServiceRemoval : Bool
  startedTryingConnectTime : ℕ

/-- A confirm request: the interface and the number of the connection that it was made over. -/
structure Confirm where
  interface : ℕ
  seq : ℕ
  deriving DecidableEq

/-- The reply that led to `READY`, and whether its connection was the current one then. -/
structure Declaration where
  confirm : Confirm
  reported : String
  current : Bool
  deriving DecidableEq

inductive DeviceCallback
  | onReady
  | onDead
  deriving DecidableEq

structure Device where
  id : String
  state : DeviceState
  interface : ℕ → DeviceInterface
  /-- The number of interfaces that have been made. -/
  made : ℕ
  interfaces : List ℕ
  activeInterface : Option ℕ
  confirms : List Confirm
  /-- The timers for another attempt that are set. -/
  retries : ℕ
  time : ℕ
  callbacks : List DeviceCallback
  declared : List Declaration
  exited : Bool

variable (s : Device)

namespace Device

def initial (id : String) : Device where
  id := id
  state := .init
  interface _ := ⟨.initial false, "", 0, "", false, 0⟩
  made := 0
  interfaces := []
  activeInterface := none
  confirms := []
  retries := 0
  time := 0
  callbacks := []
  declared := []
  exited := false

def exit : Device := { s with exited := true }

def setInterface (i : ℕ) (interface : DeviceInterface) : Device :=
  { s with interface := fun j => if j = i then interface else s.interface j }

def setState (state : DeviceState) : Device := { s with state := state }

def notify (callback : DeviceCallback) : Device :=
  { s with callbacks := s.callbacks ++ [callback] }

end Device

namespace DeviceInterface

def setConn (x : DeviceInterface) (conn : Interface Unit) : DeviceInterface :=
  { x with conn := conn }

def setServiceRemoval (x : DeviceInterface) (removal : Bool) : DeviceInterface :=
  { x with haveServiceRemoval := removal }

def setStarted (x : DeviceInterface) (time : ℕ) : DeviceInterface :=
  { x with startedTryingConnectTime := time }

end DeviceInterface

namespace Device

def setConn (i : ℕ) (conn : Interface Unit) : Device :=
  s.setInterface i ((s.interface i).setConn conn)

def interfaceExpireSecs : ℕ := 60 * 10

def shouldExpire (i : ℕ) : Bool :=
  let x := s.interface i
  if x.startedTryingConnectTime = 0 then false
  else if !x.haveServiceRemoval then false
  else decide (s.time - x.startedTryingConnectTime > interfaceExpireSecs)

def connectNextInterface : Device :=
  match s.activeInterface, s.interfaces with
  | none, i :: _ =>
    let x := s.interface i
    let started := if x.startedTryingConnectTime = 0 then s.time else x.startedTryingConnectTime
    { s with activeInterface := some i, state := .connecting }.setInterface i
      ((x.setStarted started).setConn (x.conn.connect (some ())))
  | _, _ => s

def getInterface (ip : String) (port : ℕ) : Option ℕ :=
  s.interfaces.find? fun i => (s.interface i).ip = ip ∧ (s.interface i).port = port

def getInterfaceByServiceInfo (serviceInfo : String) : Option ℕ :=
  s.interfaces.find? fun i => (s.interface i).serviceInfo = serviceInfo

def addInterface (ip : String) (port : ℕ) (serviceInfo : String) : Device :=
  match s.getInterface ip port with
  | none =>
    ({ s with made := s.made + 1, interfaces := s.interfaces ++ [s.made] }.setInterface s.made
      ⟨.initial false, ip, port, serviceInfo, false, 0⟩).connectNextInterface
  | some i =>
    (s.setInterface i ((s.interface i).setServiceRemoval false)).connectNextInterface

/-- A call over a connection that is not there has no result and no error. -/
def doConfirm : Device :=
  match s.activeInterface with
  | none => s
  | some i =>
    let conn := (s.interface i).conn
    if conn.state = .connected then { s with confirms := s.confirms ++ [⟨i, conn.connectSeq⟩] }
    else s

def onInterfaceDead : Device :=
  match s.activeInterface with
  | none => s
  | some i =>
    let s := s.setConn i ((s.interface i).conn.disconnect none)
    if s.interfaces.head? ≠ some i then s.exit
    else
      { s with
        interfaces := s.interfaces.tail ++ if s.shouldExpire i then [] else [i]
        activeInterface := none
        retries := s.retries + 1 }

/-- `_on_interface_error`, for an interface that may be `nil`. -/
def onInterfaceError (interface : Option ℕ) : Device :=
  if interface = none ∨ interface ≠ s.activeInterface then s
  else
    match s.state with
    | .connecting => (s.setState .dead).onInterfaceDead
    | .ready => ((s.setState .confirming).notify .onDead).doConfirm
    | .confirming => (s.setState .dead).onInterfaceDead
    | .confirmingTransient => ((s.notify .onDead).setState .dead).onInterfaceDead
    | .init | .dead => s

def onInterfaceConnected (i : ℕ) : Device :=
  if some i ≠ s.activeInterface then s
  else if s.state = .connecting then (s.setState .confirming).doConfirm
  else s

/-- The connection of the request is the current one of the active interface. -/
def Current (c : Confirm) : Prop :=
  s.activeInterface = some c.interface ∧ (s.interface c.interface).conn.state = .connected ∧
    (s.interface c.interface).conn.connectSeq = c.seq
deriving Decidable

/-- The state becomes `READY`. -/
def declare (c : Confirm) (reported : String) : Device :=
  { s with
    state := .ready
    declared := s.declared ++ [⟨c, reported, decide (s.Current c)⟩] }

/-- The active interface is no longer being tried. -/
def clearStarted : Device :=
  match s.activeInterface with
  | none => s
  | some i => s.setInterface i ((s.interface i).setStarted 0)

/-- What `_confirm_handler` does after the check of the id. -/
def confirmed (c : Confirm) (reported : String) : Device :=
  match s.state with
  | .confirming => ((s.declare c reported).clearStarted).notify .onReady
  | .confirmingTransient => s.declare c reported
  | .init | .connecting | .ready | .dead => s

/-- `_confirm_handler` with a result, in which there may be no id. An id that is wrong is an error
of the interface, and the handler goes on. -/
def confirmHandler (c : Confirm) : Option String → Device
  | none => s.onInterfaceError s.activeInterface
  | some reported =>
    (if s.id ≠ reported then s.onInterfaceError s.activeInterface else s).confirmed c reported

def notifyDiscoveryRemoval (serviceInfo : String) : Device :=
  match s.getInterfaceByServiceInfo serviceInfo with
  | none => s
  | some i =>
    let s := s.setInterface i ((s.interface i).setServiceRemoval true)
    if s.activeInterface ≠ some i then s
    else if s.state = .ready then (s.setState .confirmingTransient).doConfirm
    else s

def notifyDeviceError (id ip : String) (port : ℕ) : Device :=
  if id ≠ s.id then s
  else
    match s.activeInterface with
    | none => s.onInterfaceError none
    | some i =>
      if (s.interface i).ip = ip ∧ (s.interface i).port = port then s.onInterfaceError (some i)
      else s

def onRetry : Device :=
  if s.state = .dead then s.connectNextInterface else s

/-! ### Answers to an interface -/

def connectDone (i seq : ℕ) : Device :=
  let conn := (s.interface i).conn.answered seq
  let due := conn.Connects seq ∧ conn.connectedCb.isSome
  let s' := s.setConn i (conn.onConnected seq)
  if due then s'.onInterfaceConnected i else s'

/-- The error handler comes first, then the interface disconnects. -/
def connectFailed (i seq : ℕ) : Device :=
  let s' := (s.setConn i ((s.interface i).conn.answered seq)).onInterfaceError (some i)
  s'.setConn i ((s'.interface i).conn.disconnect none)

def disconnectDone (i : ℕ) : Device :=
  s.setConn i (s.interface i).conn.onDisconnected.resume

end Device

inductive DeviceEvent
  | addInterface (ip : String) (port : ℕ) (serviceInfo : String)
  | discoveryRemoval (serviceInfo : String)
  | deviceError (id ip : String) (port : ℕ)
  | connectDone (i seq : ℕ)
  | connectFailed (i seq : ℕ)
  | disconnectDone (i : ℕ)
  | disconnectFailed (i : ℕ)
  | confirmDone (n : ℕ) (deviceId : Option String)
  | confirmFailed (n : ℕ)
  /-- Another call over the interface has failed. -/
  | callFailed (i : ℕ)
  | retry
  | tick (secs : ℕ)

def Device.step (e : DeviceEvent) : Option Device :=
  if s.exited then none
  else
    match e with
    | .addInterface ip port serviceInfo => some (s.addInterface ip port serviceInfo)
    | .discoveryRemoval serviceInfo => some (s.notifyDiscoveryRemoval serviceInfo)
    | .deviceError id ip port => some (s.notifyDeviceError id ip port)
    | .connectDone i seq =>
      if (s.interface i).conn.attempts.any fun a => a.seq = seq then some (s.connectDone i seq)
      else none
    | .connectFailed i seq =>
      if (s.interface i).conn.attempts.any fun a => a.seq = seq then some (s.connectFailed i seq)
      else none
    | .disconnectDone i =>
      if (s.interface i).conn.disconnects = 0 then none else some (s.disconnectDone i)
    | .disconnectFailed i =>
      if (s.interface i).conn.disconnects = 0 then none else some s.exit
    | .confirmDone n deviceId =>
      s.confirms[n]?.map fun c =>
        { s with confirms := s.confirms.eraseIdx n }.confirmHandler c deviceId
    | .confirmFailed n =>
      s.confirms[n]?.map fun c =>
        { s with confirms := s.confirms.eraseIdx n }.onInterfaceError (some c.interface)
    | .callFailed i => some (s.onInterfaceError (some i))
    | .retry =>
      if s.retries = 0 then none else some { s with retries := s.retries - 1 }.onRetry
    | .tick secs => some { s with time := s.time + secs }

/-- A remote device, with everything that can happen to it in any order. -/
def device (id : String) : System Device DeviceEvent where
  init := .initial id
  step := Device.step

end BeepMusic.Devices
