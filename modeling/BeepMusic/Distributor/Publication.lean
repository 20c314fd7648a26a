import BeepMusic.Distributor.Members

/-!
What `players_thread` has published against what it has. A player that becomes ready
changes the table and starts a timeout; every other change is published at once and
takes the timeout away, and so does its expiry. So without a timeout the last set on
`players_ch` is the table, and with one the table is that set with the players that
have become ready since.
-/

namespace BeepMusic.Distributor

open Lib List

namespace PlayersThread

variable {s s' : PlayersThread} {input : PlayersInput}

/-- The last set that was put on `players_ch`. -/
def lastPublished (s : PlayersThread) : PlayerSet :=
  (s.published.getLast?.map Publication.players).getD .empty

/-- The player that the thread takes from `player_ready_ch` in an event. -/
def readyTaken (s : PlayersThread) : PlayersInput → List Player
  | .run =>
    match s.playerErrorsCh, s.playerReadyCh with
    | [], some p :: _ => [p]
    | _, _ => []
  | _ => []

/-- What an event does to the table and to what is published. -/
inductive TableStep (s : PlayersThread) (input : PlayersInput) (s' : PlayersThread) : Prop
  | publishes (removed : String → Bool)
      (hpublished : s'.published = s.published ++ [⟨s'.players, removed⟩])
      (htimeout : s'.playerChangeTimeout = none)
  | ready (p : Player) (hplayers : s'.players = s.players.put p)
      (hpublished : s'.published = s.published)
      (htimeout : s'.playerChangeTimeout = some false) (htaken : s.readyTaken input = [p])
  | keeps (hplayers : s'.players = s.players) (hpublished : s'.published = s.published)
      (htimeout : s'.playerChangeTimeout = none → s.playerChangeTimeout = none)
      (htaken : s.readyTaken input = [])

theorem tableStep_handleError {rest : List Player} {p : Player}
    (hch : s.playerErrorsCh = p :: rest) :
    TableStep s .run ({ s with playerErrorsCh := rest }.handleError p) := by
  rw [handleError]
  split
  · exact .publishes _ rfl rfl
  · exact .keeps rfl rfl (fun h => h) (by simp only [readyTaken, hch])

theorem tableStep_handleReady {rest : List (Option Player)} {r : Option Player}
    (herrors : s.playerErrorsCh = []) (hch : s.playerReadyCh = r :: rest) :
    TableStep s .run ({ s with playerReadyCh := rest }.handleReady r) := by
  cases r with
  | none => exact .keeps rfl rfl (fun h => h) (by simp only [readyTaken, herrors, hch])
  | some p => exact .ready p rfl rfl rfl (by simp only [readyTaken, herrors, hch])

theorem tableStep_handleCommand {rest : List PlayersCommand} (c : PlayersCommand)
    (hready : s.playerReadyCh = []) :
    TableStep s .run ({ s with commandCh := rest }.handleCommand c) := by
  have htaken : s.readyTaken .run = [] := by
    simp only [readyTaken, hready]
    split <;> simp_all
  cases c with
  | addPlayer id =>
    simp only [handleCommand, addPlayer]
    split <;> exact .keeps rfl rfl (fun h => h) htaken
  | removePlayer id =>
    simp only [handleCommand, removePlayer]
    split
    · exact .keeps rfl rfl (fun h => h) htaken
    · exact .publishes _ rfl rfl
  | removeAllPlayers => exact .publishes _ rfl rfl

theorem tableStep_run (hs : s.run = some s') : TableStep s .run s' := by
  simp only [run] at hs
  split at hs
  · rename_i hch
    exact Option.some.inj hs ▸ tableStep_handleError hch
  · rename_i herrors
    split at hs
    · rename_i hch
      exact Option.some.inj hs ▸ tableStep_handleReady herrors hch
    · rename_i hready
      split at hs
      · exact Option.some.inj hs ▸ tableStep_handleCommand _ hready
      · obtain ⟨-, rfl⟩ := Option.ite_some_none_eq_some.mp hs
        exact .publishes _ rfl rfl

theorem tableStep_step (hs : s.step input = some s') : TableStep s input s' := by
  cases input with try obtain ⟨-, rfl⟩ := Option.ite_some_none_eq_some.mp hs
  | command c =>
    cases hs
    exact .keeps rfl rfl (fun h => h) rfl
  | connected p | connectFailed p | error p =>
    exact .keeps rfl rfl (fun h => h) rfl
  | timeout =>
    exact .keeps rfl rfl (fun h => by simp at h) rfl
  | run => exact tableStep_run hs

end PlayersThread

/-! ### The players that became ready since -/

/-- The thread with the players it has taken as ready since it last published. -/
structure Debounced where
  thread : PlayersThread
  recent : List Player

def Debounced.step (d : Debounced) (input : PlayersInput) : Option Debounced :=
  (d.thread.step input).map fun t =>
    { thread := t
      recent := if d.thread.published.length < t.published.length then []
        else d.recent ++ d.thread.readyTaken input }

def debounced : System Debounced PlayersInput where
  init := ⟨.init, []⟩
  step := Debounced.step

namespace Debounced

/-- The table is what was published with the later players put in. -/
structure UpToDate (d : Debounced) : Prop where
  table : d.thread.players = d.recent.foldl PlayerSet.put d.thread.lastPublished
  settled : d.thread.playerChangeTimeout = none → d.recent = []

theorem UpToDate.step {d d' : Debounced} {input : PlayersInput} (h : d.UpToDate)
    (hs : d.step input = some d') : d'.UpToDate := by
  obtain ⟨t, hrun, rfl⟩ := Option.map_eq_some_iff.mp hs
  cases PlayersThread.tableStep_step hrun with
  | publishes removed hpublished htimeout =>
    have hlt : d.thread.published.length < t.published.length := by simp [hpublished]
    rw [if_pos hlt]
    refine ⟨?_, fun _ => rfl⟩
    simp [PlayersThread.lastPublished, hpublished]
  | ready p hplayers hpublished htimeout htaken =>
    rw [hpublished, if_neg (lt_irrefl _), htaken]
    refine ⟨?_, fun hnone => by simp [htimeout] at hnone⟩
    rw [foldl_append, PlayersThread.lastPublished, hpublished, hplayers, h.table]
    rfl
  | keeps hplayers hpublished htimeout htaken =>
    rw [hpublished, if_neg (lt_irrefl _), htaken, append_nil]
    refine ⟨?_, fun hnone => h.settled (htimeout hnone)⟩
    rw [PlayersThread.lastPublished, hpublished, hplayers, h.table]
    rfl

end Debounced

theorem PlayerSet.lookup_put (ps : PlayerSet) (p : Player) (id : String) :
    (ps.put p).lookup id = if p.id = id then some p else ps.lookup id := by
  by_cases hid : p.id = id
  · simp [PlayerSet.lookup, PlayerSet.put, hid]
  · rw [PlayerSet.lookup, PlayerSet.put, find?_cons_of_neg (by simpa using hid), if_neg hid,
      PlayerSet.lookup]
    simp only [PlayerSet.filter, find?_filter]
    refine congrArg (fun f => ps.players.find? f) ?_
    funext q
    by_cases hq : q.id = id
    · simp [hq, Ne.symm hid]
    · simp [hq]

/-- Where the two tables differ, a later player is stored. -/
theorem lookup_foldl_put (recent : List Player) (ps : PlayerSet) (id : String) :
    (recent.foldl PlayerSet.put ps).lookup id = ps.lookup id ∨
      ∃ p ∈ recent, p.id = id ∧ (recent.foldl PlayerSet.put ps).lookup id = some p := by
  induction recent using reverseRecOn with
  | nil => exact .inl rfl
  | append_singleton recent p ih =>
    rw [foldl_append, foldl_cons, foldl_nil, PlayerSet.lookup_put]
    by_cases hid : p.id = id
    · rw [if_pos hid]
      exact .inr ⟨p, by simp, hid, rfl⟩
    · rw [if_neg hid]
      rcases ih with hold | ⟨q, hq, hqid, hlookup⟩
      · exact .inl hold
      · exact .inr ⟨q, by simp [hq], hqid, hlookup⟩

/-- In every run, without a timeout the last set on `players_ch` is the table, and
with one the two differ only by players that have become ready since. -/
theorem published_upToDate (d : Debounced) (h : debounced.Reachable d) :
    (d.thread.playerChangeTimeout = none → d.thread.lastPublished = d.thread.players) ∧
      ∀ id, d.thread.players.lookup id = d.thread.lastPublished.lookup id ∨
        ∃ p ∈ d.recent, p.id = id ∧ d.thread.players.lookup id = some p := by
  have hd : d.UpToDate := h.invariant ⟨rfl, fun _ => rfl⟩ fun _ _ _ hd hs => hd.step hs
  refine ⟨fun hnone => ?_, fun id => ?_⟩
  · have htable := hd.table
    rw [hd.settled hnone] at htable
    exact htable.symm
  · rw [hd.table]
    exact lookup_foldl_put d.recent d.thread.lastPublished id

theorem published_upToDate_waiting :
    ∃ d, debounced.runFrom debounced.init
        [.command (.addPlayer "p"), .run, .connected ⟨"p", 0⟩, .run] = some d ∧
      d.recent = [⟨"p", 0⟩] ∧ d.thread.lastPublished = .empty ∧
      (d.thread.playerChangeTimeout = none → d.thread.lastPublished = d.thread.players) ∧
      ∀ id, d.thread.players.lookup id = d.thread.lastPublished.lookup id ∨
        ∃ p ∈ d.recent, p.id = id ∧ d.thread.players.lookup id = some p := by
  refine ⟨_, rfl, rfl, rfl, published_upToDate _ ?_⟩
  exact System.Reachable.runFrom
    [.command (.addPlayer "p"), .run, .connected ⟨"p", 0⟩, .run] .init rfl

end BeepMusic.Distributor
