import BeepMusic.Lib.System

/-!
The daemon of `wifisetup`: the uloop thread, which answers requests and has a periodic
callback, and the background thread `wsd_bg`, which scans and connects. They share variables
without a lock, so every access to one of them is a step of its own, and the steps of the
threads happen in any order. A signal to a condition variable that nobody waits for is lost,
and nobody is woken without one. The mutex is only locked and unlocked, by whichever thread.
-/

namespace BeepMusic.Wifisetup

open Lib

/-- `WSD_BG_STATE_ERROR` and so on. -/
inductive BgState
  | error
  | idle
  | starting
  | stopping
  | scan
  | connect
  | confirmWait
  deriving DecidableEq

/-- `WSD_SHUTDOWN_STATE_RUN` and so on. -/
inductive ShutdownState
  | run
  | stopping
  | joining
  deriving DecidableEq

/-- `CONN_RETURN_ON_UNKNOWN` and so on. -/
inductive ReturnOn
  | unknown
  | always
  | never
  | connectError
  | confirmError
  deriving DecidableEq

inductive EncType
  | unknown
  | none
  | wep
  | wpa
  | wpa2
  | wpaMixed
  deriving DecidableEq

/-- `ConnectParams`, without what only the network back end uses. -/
structure ConnectParams where
  returnOn : ReturnOn
  confirmCounter : Int
  shutdownOnSuccess : Bool
  deriving DecidableEq

/-- The arguments of `connect` that are there. -/
structure ConnectArgs where
  essid : Option String
  encType : Option EncType
  key : Option String
  returnOn : Option ReturnOn
  confirmTime : Option ℕ
  shutdown : Option ℕ
  deriving DecidableEq

/-- What is wrong with the arguments, or what is to be done. -/
def parseConnect (args : ConnectArgs) : Except String ConnectParams :=
  match args.essid, args.encType, args.returnOn, args.shutdown with
  | none, _, _, _ => .error "missing essid"
  | _, none, _, _ => .error "missing enc_type"
  | some _, some encType, returnOn, shutdown =>
    if encType = .unknown then .error "invalid enc_type"
    else if encType ≠ .none ∧ args.key = none then .error "missing key"
    else
      match returnOn, shutdown with
      | none, _ => .error "missing return_on"
      | some returnOn, shutdown =>
        if returnOn = .unknown then .error "invalid return_on"
        else
          match shutdown with
          | none => .error "missing shutdown"
          | some shutdown =>
            -- in ticks of the callback; the default is ten seconds
            let counter := args.confirmTime.getD 0 / 100
            .ok ⟨returnOn, if counter = 0 then 100 else counter, shutdown ≠ 0⟩

/-- The places of the uloop thread, each one before an access to a shared variable. -/
inductive UloopPc
  | idle
  /-- `wsd_on_interval` has been called. -/
  | checkStopping
  | stoppingSeen
  | checkJoining
  | checkConfirm
  | checkIdle
  | idleSeen
  /-- The time to confirm is over. -/
  | setIdle
  /-- Before the state is changed for the background thread. -/
  | set (next : BgState)
  /-- In `wsd_bg_trigger`, before the signal. -/
  | signal
  | unlock
  /-- `uloop_end` has been called. -/
  | ended
  deriving DecidableEq

/-- The places of the background thread. -/
inductive BgPc
  | setMode
  /-- The setup mode could not be started. -/
  | failed
  /-- The condition of the loop. -/
  | test
  /-- Before `pthread_cond_wait`. -/
  | toWait
  /-- In `pthread_cond_wait`. -/
  | waiting (signalled : Bool)
  | woken
  | dispatch
  | scanning
  | connecting
  /-- Before it asks for the shutdown itself. -/
  | askStop (save : Bool)
  /-- Before it tests whether it may change the state. -/
  | finish (confirm : Bool)
  | set (confirm : Bool)
  /-- Behind the loop. -/
  | leave
  | restore
  | join
  | ended
  deriving DecidableEq

structure Daemon where
  uloop : UloopPc
  bg : BgPc
  /-- Whether `wsd_bg_mutex` is locked. -/
  mutex : Bool
  bgState : BgState
  shutdownState : ShutdownState
  saveOnExit : Bool
  connParams : Option ConnectParams
  connReason : Int
  scanCounter : Int
  fastScanCounter : ℕ
  replies : List (Except String Unit)
  /-- `abort`, or an access through a null pointer. -/
  aborted : Bool

variable (s : Daemon)

namespace Daemon

/-- `wsd_start`: the mutex is locked before the background thread is created. -/
def initial : Daemon where
  uloop := .idle
  bg := .setMode
  mutex := true
  bgState := .starting
  shutdownState := .run
  saveOnExit := false
  connParams := none
  connReason := -3
  scanCounter := -1
  fastScanCounter := 1
  replies := []
  aborted := false

def abort : Daemon := { s with aborted := true }

def reply (answer : Except String Unit) : Daemon :=
  { s with replies := s.replies ++ [answer] }

def goUloop (pc : UloopPc) : Daemon := { s with uloop := pc }

def goBg (pc : BgPc) : Daemon := { s with bg := pc }

/-! ### The uloop thread -/

def wsdShutdown (save : Option Bool) : Daemon :=
  { s.reply (.ok ()) with
    saveOnExit := save.getD s.saveOnExit
    shutdownState := .stopping }

/-- `wsd_status`, as far as it changes something. -/
def wsdStatus : Daemon := { s.reply (.ok ()) with scanCounter := -1 }

def wsdConnect (args : ConnectArgs) (malloc : Bool) : Daemon :=
  if s.connParams.isSome then s.reply (.error "service busy")
  else
    match parseConnect args with
    | .error text => s.reply (.error text)
    | .ok params =>
      if malloc = false then { s with shutdownState := .stopping }
      else { s.reply (.ok ()) with connParams := some params }

/-- The callback counts down to the next scan. -/
def tick : Daemon :=
  { s with scanCounter := if 0 < s.scanCounter then s.scanCounter - 1 else s.scanCounter }

/-- `confirm_counter` is counted down; at zero the connection is given up. -/
def confirmTick : Daemon :=
  match s.connParams with
  | none => s.abort
  | some params =>
    if params.confirmCounter - 1 = 0 then
      { s with connReason := -4, connParams := none, uloop := .setIdle }
    else
      { s with
        connParams := some { params with confirmCounter := params.confirmCounter - 1 }
        uloop := .idle }

/-- What is to be done by an idle background thread; connecting takes precedence. -/
def choose : Daemon :=
  if s.connParams.isSome then s.goUloop (.set .connect)
  else if s.scanCounter ≤ 0 then
    if 0 < s.fastScanCounter then
      { s with
        fastScanCounter := s.fastScanCounter - 1
        scanCounter := 80
        uloop := .set .scan }
    else { s with scanCounter := 3000, uloop := .set .scan }
  else s.goUloop .idle

/-- `pthread_cond_signal`. -/
def signal : Daemon :=
  match s.bg with
  | .waiting _ => s.goBg (.waiting true)
  | _ => s

/-- The next step of `wsd_on_interval`. -/
def uloopStep : Option Daemon :=
  match s.uloop with
  | .idle | .ended => none
  | .checkStopping =>
    some (s.goUloop (if s.shutdownState = .stopping then .stoppingSeen else .checkJoining))
  | .stoppingSeen => some (s.goUloop (if s.bgState ≠ .stopping then .set .stopping else .idle))
  | .checkJoining =>
    some (if s.shutdownState = .joining then s.goUloop .ended else s.tick.goUloop .checkConfirm)
  | .checkConfirm =>
    some (if s.bgState = .confirmWait then s.confirmTick else s.goUloop .checkIdle)
  | .checkIdle => some (s.goUloop (if s.bgState = .idle then .idleSeen else .idle))
  | .idleSeen => some s.choose
  | .setIdle => some { s with bgState := .idle, uloop := .idle }
  | .set next => some { s with bgState := next, uloop := .signal }
  | .signal => some (s.signal.goUloop .unlock)
  | .unlock => some { s with mutex := false, uloop := .idle }

/-! ### The background thread -/

/-- What `ws_netbe_connect` and the others return. -/
structure BgAnswer where
  ret : Int
  reason : Int
  deriving DecidableEq

/-- Behind `ws_netbe_connect`. -/
def connected (answer : BgAnswer) : Daemon :=
  match s.connParams with
  | none => s.abort
  | some params =>
    if params.returnOn = .never then s.goBg (.askStop (answer.ret = 0))
    else
      let connReason := if answer.ret = 0 then answer.reason else -1
      let s := { s with connReason := connReason }
      if params.returnOn = .always ∨ connReason ≠ 0 then
        { s with connParams := none, bg := .finish false }
      else
        match params.returnOn with
        | .connectError =>
          if params.shutdownOnSuccess then s.goBg (.askStop true)
          else { s with connParams := none, bg := .finish false }
        | .confirmError => s.goBg (.finish true)
        | .unknown | .always | .never => { s with connParams := none, bg := .finish false }

/-- The next step of `wsd_bg`. -/
def bgStep (answer : BgAnswer) : Option Daemon :=
  match s.bg with
  | .setMode =>
    some (if answer.ret ≠ 0 then { s with bgState := .error, bg := .failed }
      else { s with bgState := .idle, bg := .test })
  | .failed => some { s with shutdownState := .joining, bg := .ended }
  | .test => some (s.goBg (if s.shutdownState = .run then .toWait else .leave))
  | .toWait => some { s with mutex := false, bg := .waiting false }
  | .waiting signalled =>
    if signalled = true ∧ s.mutex = false then some { s with mutex := true, bg := .woken }
    else none
  | .woken => some (s.goBg (if s.shutdownState = .run then .dispatch else .leave))
  | .dispatch =>
    some (match s.bgState with
      | .scan => s.goBg .scanning
      | .connect => s.goBg .connecting
      | .error | .idle | .starting | .stopping | .confirmWait => s.abort)
  | .scanning => some (s.goBg (.finish false))
  | .connecting => some (s.connected answer)
  | .askStop save => some { s with shutdownState := .stopping, saveOnExit := save, bg := .test }
  | .finish confirm => some (s.goBg (if s.bgState ≠ .stopping then .set confirm else .test))
  | .set confirm => some { s with bgState := if confirm then .confirmWait else .idle, bg := .test }
  | .leave => some { s with bgState := .stopping, bg := .restore }
  | .restore =>
    some (if answer.ret ≠ 0 then { s with bgState := .error, bg := .join } else s.goBg .join)
  | .join => some { s with shutdownState := .joining, bg := .ended }
  | .ended => none

end Daemon

inductive DaemonEvent
  /-- The timer of the callback has expired. -/
  | interval
  /-- The callback goes on. -/
  | uloop
  | shutdown (save : Option Bool)
  | status
  | connect (args : ConnectArgs) (malloc : Bool)
  /-- The background thread goes on. -/
  | bg (answer : Daemon.BgAnswer)
  deriving DecidableEq

/-- The uloop thread takes events only when it is in none of its callbacks. -/
def Daemon.whenIdle (s t : Daemon) : Option Daemon := if s.uloop = .idle then some t else none

def Daemon.step (e : DaemonEvent) : Option Daemon :=
  if s.aborted then none
  else
    match e with
    | .interval => s.whenIdle (s.goUloop .checkStopping)
    | .uloop => s.uloopStep
    | .shutdown save => s.whenIdle (s.wsdShutdown save)
    | .status => s.whenIdle s.wsdStatus
    | .connect args malloc => s.whenIdle (s.wsdConnect args malloc)
    | .bg answer => s.bgStep answer

/-- The daemon, with the steps of both threads in any order. -/
def daemon : System Daemon DaemonEvent where
  init := .initial
  step := Daemon.step

end BeepMusic.Wifisetup
