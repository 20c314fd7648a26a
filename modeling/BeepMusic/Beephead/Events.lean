import Mathlib.Data.List.AList
import BeepMusic.Lib.Traversal

/-!
The events of `beephead`: it numbers the changes of groups and of their apps, keeps the
last of them and the latest states, and answers requests for what is new since a number.
Values of the language that are only passed on are of the type `ν`, and requests of the
type `ι`.
-/

namespace BeepMusic.Beephead

open Lib

/-- The event types that `process_event` knows, and all others. -/
inductive EventType
  | groupAdded
  | groupRemoved
  | appRemoved
  | other (name : String)
  deriving DecidableEq

/-- An event; the entries of `latest_states` have neither a type nor data. -/
structure Event (ν : Type) where
  groupId : String
  object : String
  eventType : Option EventType
  eventData : Option ν
  state : Option ν

/-- `group_update`. -/
structure GroupUpdate (ν : Type) where
  object : String
  eventType : Option EventType
  eventData : Option ν
  state : Option ν

structure Response (ν : Type) where
  isRefresh : Bool
  seq : ℤ
  data : AList fun _ : String => List (GroupUpdate ν)

/-- `beep_success` and `beep_error`. -/
inductive Reply (ν : Type)
  | success (result : Response ν)
  | error (errorMessage : String) (errorCode : ℕ)

structure ParkedRequest (ι : Type) where
  stamp : ℕ
  request : ι

def maxEntries : ℤ := 20

def staleThreshold : ℕ := 60

def ubusStatusTimeout : ℕ := 7

variable {ι ν : Type} (event : Event ν)

def Event.groupUpdate : GroupUpdate ν :=
  { object := event.object
    eventType := event.eventType
    eventData := event.eventData
    state := event.state }

def groupKey (groupId : String) : String := "group." ++ groupId

/-- A turn of the loop of `format_response`. -/
def addGroupUpdate (groupEvents : AList fun _ : String => List (GroupUpdate ν))
    (event : Event ν) : AList fun _ : String => List (GroupUpdate ν) :=
  groupEvents.insert (groupKey event.groupId)
    ((groupEvents.lookup (groupKey event.groupId)).getD [] ++ [event.groupUpdate])

def formatResponse (curSeq : ℤ) (rawEvents : List (Event ν)) (isRefresh : Bool) : Response ν :=
  { isRefresh := isRefresh
    seq := curSeq - 1
    data := rawEvents.foldl addGroupUpdate ∅ }

structure Server (ι ν : Type) where
  curSeq : ℤ
  nearSeq : ℤ
  parkedRequests : List (ParkedRequest ι)
  recentEvents : ℤ → Option (Event ν)
  latestStates : AList fun _ : String => Event ν
  removedGroups : String → Bool

/-- The key of an object in `latest_states`. -/
def stateKey (groupId object : String) : String := groupId ++ "." ++ object

namespace Server

def initial : Server ι ν where
  curSeq := 2
  nearSeq := 1
  parkedRequests := []
  recentEvents _ := none
  latestStates := ∅
  removedGroups _ := false

variable (s : Server ι ν)

def notifyParkedRequests : Server ι ν × List (ι × Reply ν) :=
  ({ s with parkedRequests := [] },
    s.parkedRequests.map fun v => (v.request, .success (formatResponse s.curSeq [event] false)))

/-- The loop of `_purge_stale_requests`. When a request is removed, the one after it takes
its place and the loop steps over it. -/
def purgeLoop (now : ℕ) : List (ParkedRequest ι) → List (ParkedRequest ι) × List (ι × Reply ν)
  | [] => ([], [])
  | v :: rest =>
    if v.stamp + staleThreshold ≤ now then
      match rest with
      | [] => ([], [(v.request, .error "Request timed out" ubusStatusTimeout)])
      | next :: rest =>
        (next :: (purgeLoop now rest).1,
          (v.request, .error "Request timed out" ubusStatusTimeout) :: (purgeLoop now rest).2)
    else (v :: (purgeLoop now rest).1, (purgeLoop now rest).2)

def purgeStaleRequests (now : ℕ) : Server ι ν × List (ι × Reply ν) :=
  let purged : List (ParkedRequest ι) × List (ι × Reply ν) := purgeLoop now s.parkedRequests
  ({ s with parkedRequests := purged.1 }, purged.2)

def cullAgentForGroup (groupId agent : String) : Server ι ν :=
  { s with latestStates := s.latestStates.erase (stateKey groupId agent) }

def cullAgentsForGroup (groupId : String) : Server ι ν :=
  { s with
    latestStates := s.latestStates.entries.foldl
      (fun states agent => if agent.2.groupId = groupId then states.erase agent.1 else states)
      s.latestStates }

def incrementSequence : Server ι ν :=
  { s with
    curSeq := s.curSeq + 1
    nearSeq := if s.nearSeq < s.curSeq + 1 - maxEntries then s.nearSeq + 1 else s.nearSeq }

/-- The event goes to the recent events, and the one that is too old is dropped. -/
def record : Server ι ν :=
  { s with
    recentEvents := fun seq =>
      if seq = s.curSeq - maxEntries then none
      else if seq = s.curSeq then some event
      else s.recentEvents seq }

/-- The latest state of an object. -/
def setLatest : Server ι ν :=
  { s with
    latestStates := s.latestStates.insert (stateKey event.groupId event.object)
      { groupId := event.groupId
        object := event.object
        eventType := none
        eventData := none
        state := event.state } }

def setRemoved (groupId : String) (removed : Bool) : Server ι ν :=
  { s with
    removedGroups := fun group => if group = groupId then removed else s.removedGroups group }

def processEvent : Server ι ν × List (ι × Reply ν) :=
  if s.removedGroups event.groupId ∧ event.eventType ≠ some .groupAdded then (s, [])
  else
    let s := s.record event
    match event.eventType with
    | some .groupRemoved =>
      (((s.setRemoved event.groupId true).cullAgentsForGroup event.groupId).incrementSequence)
        |>.notifyParkedRequests event
    | some .appRemoved =>
      (s.cullAgentForGroup event.groupId event.object).incrementSequence
        |>.notifyParkedRequests event
    | some .groupAdded =>
      ((s.setRemoved event.groupId false).setLatest event).incrementSequence
        |>.notifyParkedRequests event
    | _ => (s.setLatest event).incrementSequence |>.notifyParkedRequests event

/-- The method `events`; the order of the loop over `latest_states` is left open. -/
def events (pairs : Enumeration (Event ν)) (now : ℕ) (req : ι) (seq : ℤ) :
    Server ι ν × List (ι × Reply ν) :=
  if seq < s.nearSeq then
    let reply := pairs.order (s.latestStates.entries.map Sigma.snd)
    (s, [(req, .success (formatResponse s.curSeq reply true))])
  else if s.curSeq - 1 ≤ seq then
    ({ s with parkedRequests := s.parkedRequests ++ [⟨now, req⟩] }, [])
  else
    let reply := (List.range (s.curSeq - 1 - seq).toNat).filterMap fun i : ℕ =>
      s.recentEvents (seq + 1 + i)
    (s, [(req, .success (formatResponse s.curSeq reply false))])

end Server

end BeepMusic.Beephead
