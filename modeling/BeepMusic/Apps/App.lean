import BeepMusic.Lib.System

/-!
An app of the manager: its state machine, the agent that `AgentManager` keeps for each time
that it is started, and the timers of both. A session is a start of the process; its number
stands for the process and for its pid. The callers of `start` and `stop` only wait to be
called back and are named by numbers.
-/

namespace BeepMusic.Apps

open Lib

/-- `STATE_STOPPED` and so on. -/
inductive AppState
  | stopped
  | starting
  | running
  | stopping
  deriving DecidableEq

/-- What a timer does when it expires. -/
inductive Timer
  /-- The process of a session has not added its object in time. -/
  | start (session : ℕ)
  /-- The process of a session has not stopped after `sigterm`. -/
  | term (session : ℕ)
  /-- The process of a session has not stopped after `sigkill`. -/
  | kill (session : ℕ)
  /-- The delay before the app is started again is over. -/
  | restart (delay : ℕ)
  deriving DecidableEq

/-- An agent: the object that `start_agent` makes, and whether its process runs. -/
structure Agent where
  started : Bool
  onRemovedCalled : Bool
  alive : Bool
  timer : ℕ
  deriving DecidableEq

def Agent.setStarted (agent : Agent) : Agent := { agent with started := true }

def Agent.setRemoved (agent : Agent) : Agent := { agent with onRemovedCalled := true }

def Agent.setDead (agent : Agent) : Agent := { agent with alive := false }

structure App where
  zombie : Bool
  state : AppState
  sessionId : ℕ
  restart : Bool
  restartDelay : ℕ
  onStartedCallbacks : List ℕ
  onStoppedCallbacks : List ℕ
  /-- The callbacks that have been made, with the pid if there is one. -/
  called : List (ℕ × Option ℕ)
  termTimer : Option ℕ
  killTimer : Option ℕ
  restartTimer : Option ℕ
  /-- The agent of each session. -/
  agents : ℕ → Agent
  /-- The session of the agent that `AgentManager` has for the object. -/
  registered : Option ℕ
  timers : List (ℕ × Timer)
  nextTimer : ℕ
  /-- `os.exit` has been called. -/
  exited : Bool

variable (s : App)

namespace App

/-- The agents of sessions that have not begun count as removed. -/
def initial (zombie : Bool) : App where
  zombie := zombie
  state := .stopped
  sessionId := 0
  restart := false
  restartDelay := 5
  onStartedCallbacks := []
  onStoppedCallbacks := []
  called := []
  termTimer := none
  killTimer := none
  restartTimer := none
  agents _ := ⟨false, true, false, 0⟩
  registered := none
  timers := []
  nextTimer := 0
  exited := false

def exit : App := { s with exited := true }

/-- Cancel a timer, if there is one. -/
def cancel (timer : Option ℕ) : App :=
  { s with timers := s.timers.filter fun t => some t.1 ≠ timer }

/-- `uloop.timer`; the number of the new timer is `nextTimer`. -/
def addTimer (timer : Timer) : App :=
  { s with
    timers := s.timers ++ [(s.nextTimer, timer)]
    nextTimer := s.nextTimer + 1 }

theorem mem_of_mem_addTimer {s : App} {t : ℕ × Timer} {timer : Timer}
    (hmem : t ∈ (s.addTimer timer).timers) (hne : t.2 ≠ timer) : t ∈ s.timers := by
  rcases List.mem_append.mp hmem with hold | hnew
  · exact hold
  · exact absurd (congrArg Prod.snd (List.mem_singleton.mp hnew)) hne

def setAgent (session : ℕ) (agent : Agent) : App :=
  { s with agents := fun k => if k = session then agent else s.agents k }

theorem agents_setAgent_of_ne {k j : ℕ} (agent : Agent) (hne : j ≠ k) :
    (s.setAgent k agent).agents j = s.agents j := if_neg hne

theorem agents_setAgent_self (k : ℕ) (agent : Agent) :
    (s.setAgent k agent).agents k = agent := if_pos rfl

/-- What the new agent has in common with the old one stays. -/
theorem agents_setAgent {α : Type} (f : Agent → α) (s : App) (k : ℕ) (agent : Agent)
    (hf : f agent = f (s.agents k)) (j : ℕ) :
    f ((s.setAgent k agent).agents j) = f (s.agents j) := by
  rcases eq_or_ne j k with rfl | hne
  · rw [agents_setAgent_self, hf]
  · rw [agents_setAgent_of_ne s agent hne]

def call (callback : Option ℕ) (pid : Option ℕ) : App :=
  { s with called := s.called ++ callback.toList.map fun c => (c, pid) }

def waitStarted (onStarted : Option ℕ) : App :=
  { s with onStartedCallbacks := s.onStartedCallbacks ++ onStarted.toList }

def waitStopped (onStopped : Option ℕ) : App :=
  { s with onStoppedCallbacks := s.onStoppedCallbacks ++ onStopped.toList }

/-- `_notify_start_waiters`; there is no pid if it is -1. -/
def notifyStartWaiters (pid : Option ℕ) : App :=
  { s with
    called := s.called ++ s.onStartedCallbacks.map fun c => (c, pid)
    onStartedCallbacks := [] }

def notifyStopWaiters : App :=
  { s with
    called := s.called ++ s.onStoppedCallbacks.map fun c => (c, none)
    onStoppedCallbacks := [] }

/-- `AgentManager.start_agent`, for an app: with a process and with an object. -/
def startAgent : App :=
  { (s.setAgent s.sessionId ⟨false, false, true, s.nextTimer⟩).addTimer (.start s.sessionId) with
    registered := some s.sessionId }

def doStart : App :=
  if s.state ≠ .stopped then s.exit
  else
    startAgent { s.cancel s.restartTimer with
      state := .starting
      sessionId := s.sessionId + 1
      restartTimer := none }

def doStop (force : Bool) : App :=
  if ¬(s.state = .starting ∨ s.state = .running) then s.exit
  else
    { s.addTimer (.term s.sessionId) with
      state := if s.zombie && !force then s.state else .stopping
      termTimer := some s.nextTimer }

def start (onStarted : Option ℕ) : App :=
  match s.state with
  | .running => s.call onStarted (some s.sessionId)
  | .starting => s.waitStarted onStarted
  | .stopped => (s.waitStarted onStarted).doStart
  | .stopping => { s.waitStarted onStarted with restart := true }

def stop (force : Bool) (onStopped : Option ℕ) : App :=
  match s.state with
  | .stopped => s.call onStopped none
  | .stopping => notifyStartWaiters { s.waitStopped onStopped with restart := false } none
  | .running => (s.waitStopped onStopped).doStop force
  | .starting => ((s.waitStopped onStopped).doStop force).notifyStartWaiters none

def onStarted : App :=
  if s.state ≠ .starting then s.exit
  else notifyStartWaiters { s with state := .running, restartDelay := 5 } (some s.sessionId)

def onStartTimeout : App :=
  if s.state ≠ .starting then s.exit
  else
    notifyStartWaiters { s.addTimer (.kill s.sessionId) with killTimer := some s.nextTimer } none

/-- `_on_stopped` cancels the timers for the end of the process. -/
def clearTimers : App :=
  { (s.cancel s.termTimer).cancel s.killTimer with termTimer := none, killTimer := none }

/-- The process has died, and the app will be started again after a delay. -/
def scheduleRestart : App :=
  { s.addTimer (.restart s.restartDelay) with
    state := .stopped
    restartTimer := some s.nextTimer
    restartDelay := min (s.restartDelay * 2) 600 }

def onStopped : App :=
  match s.state with
  | .running | .starting => s.clearTimers.scheduleRestart
  | .stopping =>
    if s.restart then
      (start { s.clearTimers with state := .stopped, restart := false } none).notifyStopWaiters
    else notifyStopWaiters { s.clearTimers with state := .stopped }
  | .stopped => s.clearTimers.exit

/-! The callbacks of an agent look at the session first. -/

def onAdded (session : ℕ) : App :=
  if s.sessionId = session then s.onStarted else s.exit

def onAgentTimeout (session : ℕ) : App :=
  if s.sessionId = session then s.onStartTimeout else s

def onRemoved (session : ℕ) : App :=
  if s.sessionId = session then s.onStopped else s.exit

/-- Call `on_removed` of an agent, once. -/
def removeAgent (session : ℕ) : App :=
  if (s.agents session).onRemovedCalled then s
  else
    let s := s.onRemoved session
    s.setAgent session (s.agents session).setRemoved

/-- `_on_ubus_object_add`. -/
def onUbusObjectAdd : App :=
  match s.registered with
  | none => s
  | some session =>
    if (s.agents session).started then s
    else
      ((s.setAgent session (s.agents session).setStarted).onAdded session).cancel
        (some (s.agents session).timer)

/-- `_on_ubus_object_remove`; the object has no agent afterwards, even if the app has been
started again. -/
def onUbusObjectRemove : App :=
  match s.registered with
  | none => s
  | some session =>
    if ¬(s.agents session).started then s else { s.removeAgent session with registered := none }

/-- The process of a session has exited. -/
def onExit (session : ℕ) : App :=
  (s.setAgent session (s.agents session).setDead).removeAgent session

def onTimer : Timer → App
  | .start session =>
    if (s.agents session).onRemovedCalled then s
    else { s.onAgentTimeout session with registered := none }
  | .term session => { s.addTimer (.kill session) with killTimer := some s.nextTimer }
  | .kill _ => s.exit
  | .restart _ => s.start none

end App

inductive AppEvent
  | start (onStarted : Option ℕ)
  | stop (force : Bool) (onStopped : Option ℕ)
  | add
  | remove
  | exit (session : ℕ)
  | timer (id : ℕ)
  deriving DecidableEq

def App.step (e : AppEvent) : Option App :=
  if s.exited then none
  else
    match e with
    | .start onStarted => some (s.start onStarted)
    | .stop force onStopped => some (s.stop force onStopped)
    | .add => some s.onUbusObjectAdd
    | .remove => some s.onUbusObjectRemove
    | .exit session => if (s.agents session).alive then some (s.onExit session) else none
    | .timer id =>
      (s.timers.find? fun t => t.1 = id).map fun t => (s.cancel (some id)).onTimer t.2

/-- An app, with everything that can happen to it in any order. -/
def app (zombie : Bool) : System App AppEvent where
  init := .initial zombie
  step := App.step

end BeepMusic.Apps
