import Mathlib.Data.Int.Basic
import Mathlib.Data.List.Induction
import Mathlib.Data.List.Nodup

/-!
Players, as the threads of the distributor see them: the objects of
`beep_player.lua` with the state they last reported, the tables of players that
the threads pass around, and the events of the stream thread.
-/

namespace BeepMusic.Distributor

open List

/-- A `Player` object. Two objects for one device differ in `serial`. -/
structure Player where
  id : String
  serial : ℕ
  deriving DecidableEq

/-- `player.state`, as far as the distributor reads it. -/
structure PlayerState where
  canStBegin : Bool := false
  streambufFree : ℤ := 0
  outputUsed : ℤ := 0
  writtenTrackTime : ℤ := 0
  bitrate : ℤ := 0
  numTracksStarted : ℤ := 0
  cookie : ℤ := -2
  deriving DecidableEq

/-- A table of players by id. The list order is the order in which Lua
enumerates the table. -/
structure PlayerSet where
  players : List Player
  nodup : (players.map Player.id).Nodup
  deriving DecidableEq

namespace PlayerSet

def empty : PlayerSet := ⟨[], List.nodup_nil⟩

variable (ps : PlayerSet)

def isEmpty : Bool := ps.players.isEmpty

instance : Membership Player PlayerSet := ⟨fun ps p => p ∈ ps.players⟩

instance (p : Player) (ps : PlayerSet) : Decidable (p ∈ ps) :=
  inferInstanceAs (Decidable (p ∈ ps.players))

/-- `players[id]`. -/
def lookup (id : String) : Option Player :=
  ps.players.find? fun p => p.id = id

/-- `all_vals`. -/
def allVals (pred : Player → Bool) : Bool := ps.players.all pred

/-- `any_vals`. -/
def anyVals (pred : Player → Bool) : Bool := ps.players.any pred

/-- `is_subset_of(players, ids)`, for a table that has the ids as keys. -/
def isSubsetOf (ids : List String) : Bool := ps.players.all fun p => p.id ∈ ids

/-- The players that are not dropped. -/
def filter (keep : Player → Bool) : PlayerSet where
  players := ps.players.filter keep
  nodup := ps.nodup.sublist (List.filter_sublist.map Player.id)

end PlayerSet

/-- Small sets of players, for runs on fixed inputs. -/
def onePlayer : PlayerSet := ⟨[⟨"p", 0⟩], by decide⟩

def twoPlayers : PlayerSet := ⟨[⟨"p", 0⟩, ⟨"q", 1⟩], by decide⟩

/-- `STREAM_COMMAND_SIZE`, an overestimate. -/
def streamCommandSize : ℤ := 64 * 1024

def playerCanTrackBegin (st : PlayerState) : Bool :=
  st.canStBegin && decide (streamCommandSize < st.streambufFree)

def playerCanBuffer (st : PlayerState) (dataLen : ℤ) : Bool :=
  decide (streamCommandSize + dataLen < st.streambufFree)

/-- What is sent to a player. -/
inductive Send
  | stop (cookie : ℤ)
  | start
  | trackBegin (audioType : String)
  | buffer (data : List UInt8)
  | trackEnd
  | flush (cookie : ℤ)
  deriving DecidableEq

/-- The estimate of a player's state after sending to it. -/
def Send.charge : Send → PlayerState → PlayerState
  | .start, st => { st with streambufFree := st.streambufFree - streamCommandSize }
  | .trackBegin _, st =>
    { st with canStBegin := false, streambufFree := st.streambufFree - streamCommandSize }
  | .buffer data, st =>
    { st with streambufFree := st.streambufFree - streamCommandSize - data.length }
  | .trackEnd, st => { st with streambufFree := st.streambufFree - streamCommandSize }
  | .stop _, st => st
  | .flush _, st => st

/-- What goes over `stream_event_ch`. The audio data is a list of bytes, and
`track_info` is anything. -/
inductive StreamEvent (τ : Type)
  | waitingForAcquire
  | acquireStarted (app : String)
  | acquireDone
  | trackBegin (contentLength : ℤ) (trackInfo : Option τ) (audioType : String)
  | trackEnd
  | flush
  | buffer (data : List UInt8)
  | rebuffer
  deriving DecidableEq

/-- Orders that start and stop the audio of a player. -/
inductive Order
  | resume
  | pause
  | stop
  deriving DecidableEq

/-- The last order of a log that went to the player. Each player object begins
with a `stop`, sent before any thread gets to see it. -/
def lastOrder (orders : List (Order × Player)) (p : Player) : Order :=
  ((orders.filter fun o => o.2 = p).getLast?.map Prod.fst).getD .stop

theorem lastOrder_append_map (orders : List (Order × Player)) (o : Order) (ps : List Player)
    (p : Player) :
    lastOrder (orders ++ ps.map fun q => (o, q)) p =
      if p ∈ ps then o else lastOrder orders p := by
  induction ps using reverseRecOn with
  | nil => simp
  | append_singleton ps q ih =>
    simp only [map_append, map_cons, map_nil, ← append_assoc,
      mem_append, mem_singleton]
    rcases eq_or_ne q p with rfl | hne
    · simp [lastOrder, filter_append]
    · have hlast : lastOrder (orders ++ ps.map (fun q => (o, q)) ++ [(o, q)]) p =
          lastOrder (orders ++ ps.map fun q => (o, q)) p := by
        simp [lastOrder, filter_append, hne]
      rw [hlast, ih]
      simp [hne.symm]

end BeepMusic.Distributor
