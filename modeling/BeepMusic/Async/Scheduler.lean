import BeepMusic.Async.Channel
import BeepMusic.Lib.System

/-!
The coroutine scheduler of `async.lua`. A coroutine is a resumption point of
type `K`, and `code` says what it does next there; values on channels have type
`V`. One event is either a callback of the main loop, which can only happen
while `run` is not executing, or the next action of the pass that `run` makes
over the thread list.
-/

namespace BeepMusic.Async

open Lib

abbrev ChanId := ℕ

/-- The next thing a coroutine does. -/
inductive Op (K V : Type)
  /-- The function given to `go` returns. -/
  | done (v : V)
  /-- A Lua error. -/
  | fail
  | put (ch : ChanId) (v : Option V) (next : Bool → K)
  | take (ch : ChanId) (next : Option V → K)
  | takeAsync (ch : ChanId) (next : Option V → K)
  | alts (takes puts : Option (List ChanId)) (next : ChanId → K)
  | close (ch : ChanId) (next : K)
  | newChannel (kind : BufferKind) (size : Option ℤ) (next : ChanId → K)
  | timeout (next : ChanId → K)
  | go (child : K) (next : ChanId → K)

inductive Status
  | fresh
  | running
  | suspended
  | dead
  deriving DecidableEq

/-- A coroutine and the channel its result goes to. -/
structure Thread (K : Type) where
  cont : K
  result : ChanId
  status : Status

/-- The scheduler. `pass` is the position in the thread list while `run`
executes, and `timers` are the channels of the timeouts still to expire. -/
structure State (K V : Type) where
  threads : List (Thread K)
  chan : ChanId → Channel V
  fresh : ChanId
  timers : List ChanId
  nextRun : Bool
  pass : Option ℕ
  exited : Bool

variable {K V : Type}

namespace State

def init : State K V where
  threads := []
  chan := fun _ => .new .standard none
  fresh := 0
  timers := []
  nextRun := false
  pass := none
  exited := false

/-- `os.exit(1)`. -/
def exit (s : State K V) : State K V := { s with exited := true }

/-- `schedule_run`. -/
def scheduleRun (s : State K V) : State K V := { s with nextRun := true }

/-- The channel `ch` after a call that may have called `schedule_run`. -/
def store (s : State K V) (ch : ChanId) (c : Channel V) (sched : Bool) : State K V :=
  { s with chan := Function.update s.chan ch c, nextRun := s.nextRun || sched }

/-- A new channel, under the id `s.fresh`. -/
def create (s : State K V) (kind : BufferKind) (size : Option ℤ) : State K V :=
  { s with chan := Function.update s.chan s.fresh (.new kind size), fresh := s.fresh + 1 }

/-- `timeout`, which leaves its channel under the id `s.fresh`. -/
def startTimer (s : State K V) : State K V :=
  { s.create .standard none with timers := s.timers ++ [s.fresh] }

/-- `go`: the result channel gets the id `s.fresh`. No run is scheduled. -/
def go (s : State K V) (child : K) : State K V :=
  { s.create .standard (some 1) with threads := s.threads ++ [⟨child, s.fresh, .fresh⟩] }

/-- The coroutine at `i` continues at `k`. -/
def advance (s : State K V) (i : ℕ) (t : Thread K) (k : K) : State K V :=
  { s with threads := s.threads.set i { t with cont := k, status := .running } }

/-- `coroutine.yield()` in the coroutine at `i`: the pass moves on. -/
def yield (s : State K V) (i : ℕ) (t : Thread K) : State K V :=
  { s with threads := s.threads.set i { t with status := .suspended }, pass := some (i + 1) }

/-- The coroutine at `i` is dead: the pass moves on. -/
def finish (s : State K V) (i : ℕ) (t : Thread K) : State K V :=
  { s with threads := s.threads.set i { t with status := .dead }, pass := some (i + 1) }

/-- The end of `run`: dead coroutines are removed, and `next_run = nil`. -/
def endRun (s : State K V) : State K V :=
  { s with
    threads := s.threads.filter fun t => t.status ≠ .dead
    nextRun := false
    pass := none }

/-- `Channel:put` from the main thread, where a sized buffer is refused. -/
def mainPut (s : State K V) (ch : ChanId) (v : Option V) : State K V :=
  let c := s.chan ch
  if c.closed then s
  else if c.buffer.kind = .standard ∧ c.buffer.size.isSome then s.exit
  else
    match c.put false v with
    | none => s
    | some (_, c', sched) => s.store ch c' sched

/-- `Channel:take_async`; the value is handed to the caller. -/
def takeAsync (s : State K V) (ch : ChanId) : State K V :=
  s.store ch (s.chan ch).takeAsync.2.1 (s.chan ch).takeAsync.2.2

def close (s : State K V) (ch : ChanId) : State K V :=
  s.store ch { s.chan ch with closed := true } false

/-- The first channel of the list with a value. -/
def firstReady (s : State K V) (chs : List ChanId) : Option ChanId :=
  chs.find? fun ch => decide (s.chan ch).HasValue

end State

variable (code : K → Op K V)

/-- The coroutine `t` at position `i` makes its next action. A suspended one is
inside the call that made it yield and repeats that call's test. -/
def exec (s : State K V) (i : ℕ) (t : Thread K) : State K V :=
  let resumed := decide (t.status = .suspended)
  match code t.cont with
  | .fail => s.exit
  | .done v =>
    match (s.chan t.result).put resumed (some v) with
    | none => s.yield i t
    | some (_, c, sched) => (s.store t.result c sched).finish i t
  | .put ch v next =>
    match (s.chan ch).put resumed v with
    | none => s.yield i t
    | some (r, c, sched) => (s.store ch c sched).advance i t (next r)
  | .take ch next =>
    match (s.chan ch).take resumed with
    | none => s.yield i t
    | some (v, c, sched) => (s.store ch c sched).advance i t (next v)
  | .takeAsync ch next => (s.takeAsync ch).advance i t (next (s.chan ch).takeAsync.1)
  | .alts takes puts next =>
    if takes.isNone && puts.isNone then s.exit
    else
      match s.firstReady (takes.getD []) with
      | some ch => s.advance i t (next ch)
      -- a channel has no size of its own: comparing with it is an error
      | none => if (puts.getD []).isEmpty then s.yield i t else s.exit
  | .close ch next => (s.close ch).advance i t next
  | .newChannel kind size next => (s.create kind size).advance i t (next s.fresh)
  | .timeout next => s.startTimer.advance i t (next s.fresh)
  | .go child next => (s.go child).advance i t (next s.fresh)

inductive Event (K V : Type)
  /-- The timer of `schedule_run` expires: `run` begins. -/
  | run
  /-- Within `run`: the next action of the current coroutine, or the end. -/
  | resume
  /-- The timer of a `timeout` expires. -/
  | expire (n : ℕ)
  | start
  | put (ch : ChanId) (v : Option V)
  | takeAsync (ch : ChanId)
  | close (ch : ChanId)
  | newChannel (kind : BufferKind) (size : Option ℤ)
  | timeout
  | go (child : K)

/-- A callback of the main loop; `tick` is the value a timeout puts. -/
def callback (tick : V) (s : State K V) : Event K V → Option (State K V)
  | .resume => none
  | .run => if s.nextRun then some { s with pass := some 0 } else none
  | .expire n =>
    match s.timers[n]? with
    | none => none
    | some ch => some ({ s with timers := s.timers.eraseIdx n }.mainPut ch (some tick))
  | .start => some s.scheduleRun
  | .put ch v => some (s.mainPut ch v)
  | .takeAsync ch => some (s.takeAsync ch)
  | .close ch => some (s.close ch)
  | .newChannel kind size => some (s.create kind size)
  | .timeout => some s.startTimer
  | .go child => some (s.go child)

def step (tick : V) (s : State K V) (e : Event K V) : Option (State K V) :=
  if s.exited then none
  else
    match s.pass with
    | none => callback tick s e
    | some i =>
      match e with
      | .resume =>
        match s.threads[i]? with
        | none => some s.endRun
        | some t => some (exec code s i t)
      | _ => none

/-- The scheduler as a transition system. -/
def scheduler (tick : V) : System (State K V) (Event K V) where
  init := .init
  step := step code tick

end BeepMusic.Async
