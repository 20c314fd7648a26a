import BeepMusic.Distributor.Player
import BeepMusic.Lib.System

/-!
`players_thread` of `distributor_players.lua` with the player objects it creates.
A player that is added connects on its own time, and its object comes back over
`player_ready_ch`; the thread publishes its table at once when a player goes, and
a second after the last one came. Addresses and names of players are left out,
nothing here depends on them.
-/

namespace BeepMusic.Distributor

open Lib List Option

namespace PlayerSet

/-- `players[p.id] = p`. -/
def put (ps : PlayerSet) (p : Player) : PlayerSet where
  players := p :: (ps.filter fun q => q.id ≠ p.id).players
  nodup := by
    rw [List.map_cons, List.nodup_cons]
    refine ⟨?_, (ps.filter _).nodup⟩
    simp [filter]

/-- `players[id] = nil`. -/
def drop (ps : PlayerSet) (id : String) : PlayerSet := ps.filter fun q => q.id ≠ id

end PlayerSet

inductive PlayersCommand
  | addPlayer (id : String)
  | removePlayer (id : String)
  | removeAllPlayers
  deriving DecidableEq

/-- A table put on `players_ch`, with the ids that had been removed, and not added
again, by then. -/
structure Publication where
  players : PlayerSet
  removed : String → Bool

/-- The locals and channels of `players_thread`, and the player objects. -/
structure PlayersThread where
  players : PlayerSet
  playerErrorsCh : List Player
  /-- `none` is the `false` of a connection that failed. -/
  playerReadyCh : List (Option Player)
  commandCh : List PlayersCommand
  /-- `player_change_timeout_ch`, if there is one, and whether it has its value. -/
  playerChangeTimeout : Option Bool
  /-- The objects created so far, those that are connecting, and those with `has_error`. -/
  created : List Player
  connecting : List Player
  hasError : List Player
  closed : List Player
  replies : ℕ
  published : List Publication
  /-- The ids removed by a command and not added since. -/
  removed : String → Bool

inductive PlayersInput
  | command (c : PlayersCommand)
  | connected (p : Player)
  | connectFailed (p : Player)
  | error (p : Player)
  | timeout
  /-- The thread goes on with the first of its channels that has a value. -/
  | run

variable (s : PlayersThread) (p : Player)

namespace PlayersThread

def init : PlayersThread where
  players := .empty
  playerErrorsCh := []
  playerReadyCh := []
  commandCh := []
  playerChangeTimeout := none
  created := []
  connecting := []
  hasError := []
  closed := []
  replies := 0
  published := []
  removed := fun _ => false

/-- `players_ch:put(shallowcopy(players))`, and no timeout is left. -/
def publish : PlayersThread :=
  { s with
    playerChangeTimeout := none
    published := s.published ++ [⟨s.players, s.removed⟩] }

def reply : PlayersThread := { s with replies := s.replies + 1 }

/-- `Player:close`, without its effect on the device. -/
def close (ps : List Player) : PlayersThread :=
  { s with closed := s.closed ++ ps }

/-- `new_player`. -/
def newPlayer (id : String) : PlayersThread :=
  let p : Player := ⟨id, s.created.length⟩
  { s with created := s.created ++ [p], connecting := s.connecting ++ [p] }

def addPlayer (id : String) : PlayersThread :=
  let s := { s with removed := Function.update s.removed id false }
  match s.players.lookup id with
  | some _ => s.reply
  | none => (s.newPlayer id).reply

def removePlayer (id : String) : PlayersThread :=
  let s := { s with removed := Function.update s.removed id true }
  match s.players.lookup id with
  | none => s.reply
  | some p => ({ s with players := s.players.drop id }.close [p]).publish.reply

def removeAllPlayers : PlayersThread :=
  let s := { s with removed := fun _ => true }
  ({ s with players := .empty }.close s.players.players).publish.reply

def handleCommand : PlayersCommand → PlayersThread
  | .addPlayer id => s.addPlayer id
  | .removePlayer id => s.removePlayer id
  | .removeAllPlayers => s.removeAllPlayers

/-- The `player_ready_ch` branch. -/
def handleReady : Option Player → PlayersThread
  | none => s
  | some p => { s with players := s.players.put p, playerChangeTimeout := some false }

/-- The `player_errors_ch` branch. An error of an object that is not in the table
any more is ignored. -/
def handleError : PlayersThread :=
  if s.players.lookup p.id = some p then { s with players := s.players.drop p.id }.publish
  else s

/-- `alts({player_errors_ch, player_ready_ch, ubus_players_command_ch, ..})`. -/
def run : Option PlayersThread :=
  match s.playerErrorsCh with
  | p :: rest => some ({ s with playerErrorsCh := rest }.handleError p)
  | [] =>
    match s.playerReadyCh with
    | p :: rest => some ({ s with playerReadyCh := rest }.handleReady p)
    | [] =>
      match s.commandCh with
      | c :: rest => some ({ s with commandCh := rest }.handleCommand c)
      | [] => if s.playerChangeTimeout = some true then some s.publish else none

def connected : PlayersThread :=
  { s with
    connecting := s.connecting.erase p
    playerReadyCh := s.playerReadyCh ++ [some p] }

/-- `_init_error`. -/
def connectFailed : PlayersThread :=
  { s with
    connecting := s.connecting.erase p
    hasError := p :: s.hasError
    closed := s.closed ++ [p]
    playerReadyCh := s.playerReadyCh ++ [none] }

/-- `_on_error`. -/
def error : PlayersThread :=
  { s with
    hasError := p :: s.hasError
    closed := s.closed ++ [p]
    playerErrorsCh := s.playerErrorsCh ++ [p] }

def step : PlayersInput → Option PlayersThread
  | .command c => some { s with commandCh := s.commandCh ++ [c] }
  | .connected p => if p ∈ s.connecting then some (s.connected p) else none
  | .connectFailed p =>
    if p ∈ s.connecting ∧ p ∉ s.hasError then some (s.connectFailed p) else none
  | .error p => if p ∈ s.created ∧ p ∉ s.hasError then some (s.error p) else none
  | .timeout =>
    if s.playerChangeTimeout = some false then some { s with playerChangeTimeout := some true }
    else none
  | .run => s.run

end PlayersThread

/-- The players thread as a transition system. -/
def playersThread : System PlayersThread PlayersInput where
  init := .init
  step := PlayersThread.step

/-- No table that is published has a player that has been removed. -/
def PlayersThread.RemovedStayOut : Prop :=
  ∀ m ∈ s.published, ∀ p ∈ m.players.players, m.removed p.id = false

namespace PlayersThread

/-- A command that removes a player is not taken while the player is connecting. -/
def RemovesConnected : PlayersInput → Prop
  | .run =>
    s.playerErrorsCh = [] → s.playerReadyCh = [] →
      match s.commandCh with
      | .removePlayer id :: _ => ∀ p ∈ s.connecting, p.id ≠ id
      | .removeAllPlayers :: _ => s.connecting = []
      | _ => True
  | _ => True

instance (s : PlayersThread) (input : PlayersInput) : Decidable (s.RemovesConnected input) :=
  match input with
  | .run =>
    match hch : s.commandCh with
    | .removePlayer id :: _ =>
      decidable_of_iff
        (s.playerErrorsCh = [] → s.playerReadyCh = [] → ∀ p ∈ s.connecting, p.id ≠ id)
        (by rw [RemovesConnected, hch])
    | .removeAllPlayers :: _ =>
      decidable_of_iff
        (s.playerErrorsCh = [] → s.playerReadyCh = [] → s.connecting = [])
        (by rw [RemovesConnected, hch])
    | .addPlayer _ :: _ | [] => .isTrue (by intro _ _; rw [hch]; trivial)
  | .command _ | .connected _ | .connectFailed _ | .error _ | .timeout => .isTrue trivial

/-- The players that may come to be in a table that is published. -/
def Candidate : Prop :=
  p ∈ s.players.players ∨ some p ∈ s.playerReadyCh ∨ p ∈ s.connecting

/-- A player that has been removed is nowhere on its way into the table. -/
structure Gone (s : PlayersThread) : Prop where
  candidates : ∀ p, s.Candidate p → s.removed p.id = false
  published : s.RemovedStayOut

variable {s : PlayersThread}

theorem gone_init : init.Gone where
  candidates := by simp [Candidate, init, PlayerSet.empty]
  published := by simp [RemovedStayOut, init]

variable {s' : PlayersThread}

/-- The thread goes on with no more candidates and publishes nothing. -/
theorem Gone.mono (h : s.Gone) (hcandidates : ∀ p, s'.Candidate p → s.Candidate p)
    (hremoved : s'.removed = s.removed) (hpublished : s'.published = s.published) : s'.Gone where
  candidates p hp := by
    rw [hremoved]
    exact h.candidates p (hcandidates p hp)
  published := by
    rw [RemovedStayOut, hpublished]
    exact h.published

theorem Gone.publish (h : s.Gone) : s.publish.Gone where
  candidates := h.candidates
  published := by
    intro m hm p hp
    rcases mem_append.mp hm with hold | hnew
    · exact h.published m hold p hp
    · rw [mem_singleton.mp hnew] at hp ⊢
      exact h.candidates p (.inl hp)

theorem mem_drop {ps : PlayerSet} {id : String} {p : Player} :
    p ∈ (ps.drop id).players ↔ p ∈ ps.players ∧ p.id ≠ id := by
  simp [PlayerSet.drop, PlayerSet.filter]

theorem Gone.drop (h : s.Gone) (id : String) :
    { s with players := s.players.drop id }.Gone :=
  h.mono (fun _ hp => hp.imp_left fun hin => (mem_drop.mp hin).1) rfl rfl

theorem Gone.handleError (h : s.Gone) (p : Player) : (s.handleError p).Gone := by
  rw [PlayersThread.handleError]
  split
  · exact (h.drop p.id).publish
  · exact h

/-- The object that connected moves from the channel to the table. -/
theorem Gone.handleReady {rest : List (Option Player)} {r : Option Player} (h : s.Gone)
    (hch : s.playerReadyCh = r :: rest) :
    ({ s with playerReadyCh := rest }.handleReady r).Gone := by
  cases r with
  | none =>
    refine h.mono (fun p hp => ?_) rfl rfl
    simpa [Candidate, hch, PlayersThread.handleReady] using hp
  | some q =>
    refine h.mono ?_ rfl rfl
    rintro p (hin | hready | hconnecting)
    · rcases mem_cons.mp hin with rfl | hold
      · exact .inr (.inl (by simp [hch]))
      · exact .inl (mem_drop.mp hold).1
    · exact .inr (.inl (by rw [hch]; exact mem_cons_of_mem _ hready))
    · exact .inr (.inr hconnecting)

/-- An id that is added is not removed any more, and only it gets a new object. -/
theorem Gone.addPlayer (h : s.Gone) (id : String) : (s.addPlayer id).Gone := by
  have hadded : { s with removed := Function.update s.removed id false }.Gone :=
    ⟨fun p hp => by
      rcases eq_or_ne p.id id with heq | hne
      · simp [heq]
      · simpa [hne] using h.candidates p hp, h.published⟩
  simp only [PlayersThread.addPlayer]
  split
  · exact hadded.mono (fun _ hp => hp) rfl rfl
  · refine ⟨?_, hadded.published⟩
    rintro p (hin | hready | hconnecting)
    · exact hadded.candidates p (.inl hin)
    · exact hadded.candidates p (.inr (.inl hready))
    · rcases mem_append.mp hconnecting with hold | hnew
      · exact hadded.candidates p (.inr (.inr hold))
      · rw [mem_singleton.mp hnew]
        exact Function.update_self ..

theorem id_of_lookup {ps : PlayerSet} {id : String} (h : ps.lookup id = none) :
    ∀ p ∈ ps.players, p.id ≠ id := by
  simpa [PlayerSet.lookup, find?_eq_none] using h

/-- Removing an id of which no object is connecting leaves no candidate with it. -/
theorem Gone.removePlayer (h : s.Gone) (id : String) (hready : s.playerReadyCh = [])
    (hconnecting : ∀ p ∈ s.connecting, p.id ≠ id) : (s.removePlayer id).Gone := by
  have hremoved : ∀ p, p.id ≠ id → s.Candidate p →
      Function.update s.removed id true p.id = false := by
    intro p hne hp
    rw [Function.update_of_ne hne]
    exact h.candidates p hp
  simp only [PlayersThread.removePlayer]
  split
  · rename_i hlookup
    refine ⟨fun p hp => hremoved p ?_ hp, h.published⟩
    rcases hp with hin | hin | hin
    · exact id_of_lookup hlookup p hin
    · exact absurd hin (by simp [PlayersThread.reply, hready])
    · exact hconnecting p hin
  · have hgone : { s with
        removed := Function.update s.removed id true
        players := s.players.drop id }.Gone := by
      refine ⟨?_, h.published⟩
      rintro q (hin | hin | hin)
      · obtain ⟨hold, hne⟩ := mem_drop.mp hin
        exact hremoved q hne (.inl hold)
      · exact absurd hin (by simp [hready])
      · exact hremoved q (hconnecting q hin) (.inr (.inr hin))
    exact Gone.mono (Gone.publish (hgone.mono (fun _ hp => hp) rfl rfl)) (fun _ hp => hp) rfl rfl

theorem Gone.removeAllPlayers (h : s.Gone) (hready : s.playerReadyCh = [])
    (hconnecting : s.connecting = []) : s.removeAllPlayers.Gone := by
  have hgone : { s with removed := fun _ => true, players := .empty }.Gone := by
    refine ⟨fun p hp => ?_, h.published⟩
    simp [Candidate, PlayerSet.empty, hready, hconnecting] at hp
  exact Gone.mono (Gone.publish (hgone.mono (fun _ hp => hp) rfl rfl)) (fun _ hp => hp) rfl rfl

theorem Gone.run (h : s.Gone) (hok : s.RemovesConnected .run) (hs : s.run = some s') : s'.Gone := by
  simp only [PlayersThread.run] at hs
  split at hs
  · rename_i p rest _
    have htaken : { s with playerErrorsCh := rest }.Gone := h.mono (fun _ hp => hp) rfl rfl
    cases hs
    exact htaken.handleError p
  · rename_i herrors
    split at hs
    · rename_i r rest hch
      cases hs
      exact h.handleReady hch
    · rename_i hready
      have hcommand := hok herrors hready
      split at hs
      · rename_i c rest hch
        rw [hch] at hcommand
        have htaken : { s with commandCh := rest }.Gone := h.mono (fun _ hp => hp) rfl rfl
        cases hs
        cases c with
        | addPlayer id => exact htaken.addPlayer id
        | removePlayer id => exact htaken.removePlayer id hready hcommand
        | removeAllPlayers => exact htaken.removeAllPlayers hready hcommand
      · obtain ⟨-, rfl⟩ := ite_some_none_eq_some.mp hs
        exact h.publish

theorem Gone.step {input : PlayersInput} (h : s.Gone) (hok : s.RemovesConnected input)
    (hs : s.step input = some s') : s'.Gone := by
  cases input with
  | command c =>
    cases hs
    exact h.mono (fun _ hp => hp) rfl rfl
  | connected p =>
    obtain ⟨hp, rfl⟩ := ite_some_none_eq_some.mp hs
    refine h.mono ?_ rfl rfl
    rintro q (hin | hready | hconnecting)
    · exact .inl hin
    · rcases mem_append.mp hready with hold | hnew
      · exact .inr (.inl hold)
      · obtain rfl := Option.some.inj (mem_singleton.mp hnew)
        exact .inr (.inr hp)
    · exact .inr (.inr (mem_of_mem_erase hconnecting))
  | connectFailed p =>
    obtain ⟨-, rfl⟩ := ite_some_none_eq_some.mp hs
    refine h.mono ?_ rfl rfl
    rintro q (hin | hready | hconnecting)
    · exact .inl hin
    · exact .inr (.inl (by simpa [PlayersThread.connectFailed] using hready))
    · exact .inr (.inr (mem_of_mem_erase hconnecting))
  | error p | timeout =>
    obtain ⟨-, rfl⟩ := ite_some_none_eq_some.mp hs
    exact h.mono (fun _ hp => hp) rfl rfl
  | run => exact h.run hok hs

end PlayersThread

/-- No player comes back without being added, in every run in which players that
are connecting are not removed. -/
theorem removedStayOut_of_removesConnected
    (h : playersThread.ReachableUnder PlayersThread.RemovesConnected s) : s.RemovedStayOut :=
  (h.invariant PlayersThread.gone_init fun _ _ _ hg hok hs => hg.step hok hs).published

/-- A player is added and removed. It connects before it is removed. -/
theorem removedStayOut_one_player :
    ∃ s, playersThread.runFrom .init
        [.command (.addPlayer "p"), .run, .connected ⟨"p", 0⟩, .run, .timeout, .run,
          .command (.removePlayer "p"), .run] = some s ∧
      s.published.map (·.players) = [onePlayer, .empty] ∧ s.RemovedStayOut := by
  refine ⟨_, rfl, by decide, removedStayOut_of_removesConnected _ ?_⟩
  exact System.ReachableUnder.runFrom
    [.command (.addPlayer "p"), .run, .connected ⟨"p", 0⟩, .run, .timeout, .run,
      .command (.removePlayer "p"), .run] .init (by decide) rfl

/-- The player connects after the command that removes it. -/
theorem removed_player_published :
    ∃ s, playersThread.Reachable s ∧ s.published.map (·.players) = [onePlayer] ∧
      ¬s.RemovedStayOut := by
  refine ⟨_, System.Reachable.runFrom
    [.command (.addPlayer "p"), .run, .command (.removePlayer "p"), .run,
      .connected ⟨"p", 0⟩, .run, .timeout, .run] .init rfl, by decide, fun h => ?_⟩
  exact absurd (h _ mem_cons_self ⟨"p", 0⟩ mem_cons_self) (by decide)

end BeepMusic.Distributor
