import BeepMusic.Beephead.Events
import BeepMusic.Lib.Overlay
import BeepMusic.Lib.System

/-!
Clients that poll `beephead`. What they should hold is said by the history of the events
that count; a client holds what the history was when its last response was sent.
-/

namespace BeepMusic.Beephead

open Lib

variable {ι ν : Type}

/-! ### The state of the groups -/

/-- The states of objects, by group and name: `none` for an object that is not there. -/
abbrev View (ν : Type) := String × String → Option (Option ν)

/-- What an update of its group does to an object. -/
def GroupUpdate.effect (u : GroupUpdate ν) (object : String) : Option (Option (Option ν)) :=
  if u.eventType = some .groupRemoved then some none
  else if u.object = object then
    if u.eventType = some .appRemoved then some none else some (some u.state)
  else none

/-- What an event does to an object. -/
def Event.effect (e : Event ν) (k : String × String) : Option (Option (Option ν)) :=
  if e.groupId = k.1 then e.groupUpdate.effect k.2 else none

/-- The groups that are removed, and the events that count: those of a group that is removed
do not, until it is added again. -/
structure Cluster (ν : Type) where
  removed : String → Bool
  history : List (Event ν)

namespace Cluster

def initial : Cluster ν := ⟨fun _ => false, []⟩

def step (c : Cluster ν) (e : Event ν) : Cluster ν :=
  if c.removed e.groupId ∧ e.eventType ≠ some .groupAdded then c
  else
    { removed := fun group =>
        if group = e.groupId then decide (e.eventType = some .groupRemoved) else c.removed group
      history := c.history ++ [e] }

/-- The states after some events. -/
def after (es : List (Event ν)) : View ν :=
  es.foldl (fun view e => overlay view e.effect) fun _ => none

/-- The latest states. -/
def latest (c : Cluster ν) : View ν := after c.history

end Cluster

/-! ### Clients -/

/-- Where a request of a client is. A reply on its way comes with the latest states when it
was sent. -/
inductive Phase (ν : Type)
  | idle
  | asked
  | parked
  | answered (reply : Reply ν) (sentAt : View ν)

/-- A client, with the latest states when the last response that it has got was sent. -/
structure Client (ν : Type) where
  seq : ℤ
  view : View ν
  phase : Phase ν
  asOf : Option (View ν)

/-- The states of a client after a response: a refresh replaces them, and the updates of
each group are made in their order. -/
def Response.applyTo (r : Response ν) (view : View ν) : View ν := fun k =>
  ((r.data.lookup (groupKey k.1)).getD []).foldl
    (fun held u => (u.effect k.2).getD held) (if r.isRefresh then none else view k)

namespace Client

def initial : Client ν := ⟨0, fun _ => none, .idle, none⟩

/-- The client takes a reply. `wire` is what becomes of a number on the bus. -/
def receive (wire : ℤ → ℤ) (c : Client ν) : Option (Client ν) :=
  match c.phase with
  | .answered (.success r) sentAt =>
    some { seq := wire r.seq, view := r.applyTo c.view, phase := .idle, asOf := some sentAt }
  | .answered (.error _ _) _ => some { c with phase := .idle }
  | _ => none

/-- A reply is on its way. -/
def answer (c : Client ν) (reply : Reply ν) (sentAt : View ν) : Client ν :=
  { c with phase := .answered reply sentAt }

end Client

/-! ### The system -/

/-- The server and its clients. Requests of others have no client. -/
structure Polling (ι ν : Type) where
  server : Server (Option ι) ν
  clients : ι → Client ν
  cluster : Cluster ν

inductive PollingEvent (ι ν : Type)
  /-- Something has changed. -/
  | change (event : Event ν)
  /-- A client sends a request. -/
  | poll (client : ι)
  /-- The server handles the request of a client. -/
  | serve (client : ι) (pairs : Enumeration (Event ν)) (now : ℕ)
  /-- The server handles a request of somebody else. -/
  | serveOther (seq : ℤ) (pairs : Enumeration (Event ν)) (now : ℕ)
  /-- The timer for stale requests expires. -/
  | purge (now : ℕ)
  /-- A reply arrives. -/
  | receive (client : ι)

namespace Polling

variable [DecidableEq ι]

def initial : Polling ι ν := ⟨.initial, fun _ => .initial, .initial⟩

/-- Change one client. -/
def setClient (s : Polling ι ν) (i : ι) (c : Client ν) : Polling ι ν :=
  { s with clients := fun j => if j = i then c else s.clients j }

/-- The server has made a step, and its replies are on their way. -/
def send (s : Polling ι ν) (result : Server (Option ι) ν × List (Option ι × Reply ν)) :
    Polling ι ν :=
  { s with
    server := result.1
    clients := fun i =>
      match result.2.find? fun r => r.1 = some i with
      | some r => (s.clients i).answer r.2 s.cluster.latest
      | none => s.clients i }

def step (wire : ℤ → ℤ) (s : Polling ι ν) : PollingEvent ι ν → Option (Polling ι ν)
  | .change event => some ({ s with cluster := s.cluster.step event }.send
      (s.server.processEvent event))
  | .poll i =>
    match (s.clients i).phase with
    | .idle => some (s.setClient i { s.clients i with phase := .asked })
    | _ => none
  | .serve i pairs now =>
    match (s.clients i).phase with
    | .asked => some ((s.setClient i { s.clients i with phase := .parked }).send
        (s.server.events pairs now (some i) (s.clients i).seq))
    | _ => none
  | .serveOther seq pairs now => some (s.send (s.server.events pairs now none seq))
  | .purge now => some (s.send (s.server.purgeStaleRequests now))
  | .receive i => ((s.clients i).receive wire).map (s.setClient i)

end Polling

/-- `beephead` and clients that poll it. -/
def polling (ι ν : Type) [DecidableEq ι] (wire : ℤ → ℤ) :
    System (Polling ι ν) (PollingEvent ι ν) where
  init := .initial
  step := Polling.step wire

end BeepMusic.Beephead
