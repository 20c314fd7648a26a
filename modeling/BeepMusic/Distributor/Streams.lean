import BeepMusic.Distributor.Publication

/-!
The streams of the player objects. A player opens its stream while it connects and
keeps it in `_stream`; `Player:close` tests the field `stream`, which nothing sets,
before it closes `_stream`. So a stream is accounted for only as long as its player
is not dropped from the table.
-/

namespace BeepMusic.Distributor

open Lib List

/-- The fields of a player object that `Player:close` looks at, and what it has done. -/
structure PlayerObject where
  /-- The field `stream`. -/
  stream : Bool
  /-- The field `_stream`: its connection has completed. -/
  opened : Bool
  /-- `_stream:close()` has been called. -/
  streamClosed : Bool
  /-- Calls of `dev:cleanup()`. -/
  cleanups : ℕ
  deriving DecidableEq

namespace PlayerObject

def new : PlayerObject := ⟨false, false, false, 0⟩

/-- `self._stream = stream.new_stream(..)`, once it is connected. -/
def openStream (o : PlayerObject) : PlayerObject := { o with opened := true }

/-- `Player:close`. -/
def close (o : PlayerObject) : PlayerObject :=
  let o := if o.stream then { o with streamClosed := true } else o
  { o with cleanups := o.cleanups + 1 }

end PlayerObject

/-- The thread with the objects. -/
structure Streams where
  thread : PlayersThread
  objects : Player → PlayerObject

/-- Call `close` of the players of a list. -/
def closeAll (ps : List Player) (objects : Player → PlayerObject) : Player → PlayerObject :=
  ps.foldl (fun objects p => Function.update objects p (objects p).close) objects

/-- The players that have been closed by an event are the new ones in the list. -/
def Streams.step (s : Streams) (input : PlayersInput) : Option Streams :=
  (s.thread.step input).map fun t =>
    let objects :=
      match input with
      | .connected p => Function.update s.objects p (s.objects p).openStream
      | _ => s.objects
    ⟨t, closeAll (t.closed.drop s.thread.closed.length) objects⟩

namespace Streams

/-- Every player whose connection has completed is the one in the table under its id,
or its stream has been closed. -/
def Owned (s : Streams) : Prop :=
  ∀ p, (s.objects p).opened = true →
    s.thread.players.lookup p.id = some p ∨ (s.objects p).streamClosed = true

theorem opened_closeAll (ps : List Player) (objects : Player → PlayerObject) (p : Player) :
    (closeAll ps objects p).opened = (objects p).opened := by
  induction ps generalizing objects with
  | nil => rfl
  | cons q ps ih =>
    refine (ih _).trans ?_
    dsimp only
    rcases eq_or_ne p q with rfl | hne
    · rw [Function.update_self, PlayerObject.close]
      split <;> rfl
    · rw [Function.update_of_ne hne]

end Streams

namespace PlayersThread

/-- The next message drops a player of the table: its own error, another object of its id that
is ready, or a command that removes it. -/
def drops (s : PlayersThread) : Bool :=
  match s.playerErrorsCh, s.playerReadyCh, s.commandCh with
  | p :: _, _, _ => s.players.lookup p.id = some p
  | [], some p :: _, _ => (s.players.lookup p.id).isSome
  | [], [], .removePlayer id :: _ => (s.players.lookup id).isSome
  | [], [], .removeAllPlayers :: _ => !s.players.players.isEmpty
  | _, _, _ => false

/-- No player is dropped from the table. -/
def Keeps (s : PlayersThread) (input : PlayersInput) : Prop := input = .run → s.drops = false

instance (s : PlayersThread) (input : PlayersInput) : Decidable (s.Keeps input) :=
  match input with
  | .run => decidable_of_iff (s.drops = false) ⟨fun h _ => h, fun h => h rfl⟩
  | .command _ | .connected _ | .connectFailed _ | .error _ | .timeout => .isTrue (by simp [Keeps])

/-- The player is in the table, or waits to be put there. -/
def Has (s : PlayersThread) (p : Player) : Prop :=
  s.players.lookup p.id = some p ∨ some p ∈ s.playerReadyCh

variable {s s' : PlayersThread} {p : Player}

theorem Has.handleReady (h : s.Has p) {r : Option Player} {rest : List (Option Player)}
    (hch : s.playerReadyCh = r :: rest) (hfree : ∀ q, r = some q → s.players.lookup q.id = none) :
    ({ s with playerReadyCh := rest }.handleReady r).Has p := by
  rw [Has, hch, mem_cons] at h
  cases r with
  | none => exact h.imp_right fun hin => hin.resolve_left (by simp)
  | some q =>
    have hput := s.players.lookup_put q p.id
    rcases h with htable | heq | hin
    · have hne : q.id ≠ p.id := fun hid => by
        rw [← hid, hfree q rfl] at htable
        cases htable
      exact .inl ((hput.trans (if_neg hne)).trans htable)
    · cases heq
      exact .inl (hput.trans (if_pos rfl))
    · exact .inr hin

theorem Has.handleCommand (h : s.Has p) {c : PlayersCommand} {rest : List PlayersCommand}
    (herrors : s.playerErrorsCh = []) (hready : s.playerReadyCh = [])
    (hch : s.commandCh = c :: rest) (hok : s.drops = false) :
    ({ s with commandCh := rest }.handleCommand c).Has p := by
  simp only [drops, herrors, hready, hch] at hok
  cases c with
  | addPlayer id =>
    simp only [PlayersThread.handleCommand, addPlayer]
    split <;> exact h
  | removePlayer id =>
    have hnone : s.players.lookup id = none := by simpa using hok
    simp only [PlayersThread.handleCommand, removePlayer, hnone]
    exact h
  | removeAllPlayers =>
    have hempty : s.players.players = [] := by simpa using hok
    rw [Has, hready, PlayerSet.lookup, hempty] at h
    simp at h

theorem Has.run (h : s.Has p) (hok : s.drops = false) (hs : s.run = some s') : s'.Has p := by
  simp only [PlayersThread.run] at hs
  split at hs
  · next q rest herrors =>
    cases hs
    have hother : ¬s.players.lookup q.id = some q := by simpa [drops, herrors] using hok
    rw [PlayersThread.handleError, if_neg hother]
    exact h
  · next herrors =>
    split at hs
    · next r rest hch =>
      cases hs
      refine h.handleReady hch fun q hq => ?_
      simpa [drops, herrors, hch, hq] using hok
    · next hready =>
      split at hs
      · next c rest hch =>
        cases hs
        exact h.handleCommand herrors hready hch hok
      · obtain ⟨-, rfl⟩ := Option.ite_some_none_eq_some.mp hs
        exact h

theorem Has.step {input : PlayersInput} (h : s.Has p) (hok : s.Keeps input)
    (hs : s.step input = some s') : s'.Has p := by
  cases input with try obtain ⟨-, rfl⟩ := Option.ite_some_none_eq_some.mp hs
  | command c =>
    cases hs
    exact h
  | connected q | connectFailed q => exact h.imp_right (mem_append_left _)
  | error q | timeout => exact h
  | run => exact h.run (hok rfl) hs

end PlayersThread

/-- Every player whose connection has completed is in the table or waits to be put there. -/
def Streams.Held (s : Streams) : Prop := ∀ p, (s.objects p).opened = true → s.thread.Has p

theorem Streams.Held.step {s s' : Streams} {input : PlayersInput} (h : s.Held)
    (hok : s.thread.Keeps input) (hs : s.step input = some s') : s'.Held := by
  obtain ⟨t, ht, rfl⟩ := Option.map_eq_some_iff.mp hs
  intro p hp
  rw [opened_closeAll] at hp
  cases input with try exact (h p hp).step hok ht
  | connected q =>
    rcases eq_or_ne p q with rfl | hne
    · obtain ⟨-, rfl⟩ := Option.ite_some_none_eq_some.mp ht
      exact .inr (mem_append_right _ (mem_singleton_self _))
    · dsimp only at hp
      rw [Function.update_of_ne hne] at hp
      exact (h p hp).step hok ht

end BeepMusic.Distributor
