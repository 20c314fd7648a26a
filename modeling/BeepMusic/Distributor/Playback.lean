import BeepMusic.Distributor.Play

/-!
The play thread with what the starts of tracks depend on: the stream events that
wait for it, the tracks that have been sent to the players, and the players' own
counters of the tracks they have started, as they were when they were last polled.
A player stopped by an acquire or a rebuffer counts from zero again. The tracks of
an acquire are numbered from zero. All players stop at once: until the last of them
has stopped they do not all have the new cookie, and their states are not used.
-/

namespace BeepMusic.Distributor

open Lib

/-- The tracks in a player since it was last stopped: those sent and not decoded
yet, those of which no sample has been played, and those that have started.
`counter` is `num_tracks_started`. -/
structure Deck where
  toStart : List ℕ
  decoded : List ℕ
  played : List ℕ
  counter : ℕ

/-- A report of a counter, with the number of stops before it and the last track
that the player had started. -/
structure Sample where
  epoch : ℕ
  count : ℕ
  last : Option ℕ
  deriving DecidableEq

/-- What became of an acquire: the `track_info` of the events, those of the tracks
that began, and the tracks that started. -/
structure AcquireLog (τ : Type) where
  infos : List (Option τ)
  taken : List (Option τ)
  started : List ℕ

structure Playback (τ : Type) where
  play : PlayThread τ
  /-- `stream_event_ch`. -/
  eventCh : List (StreamEvent τ)
  /-- The tracks of the acquire for which `TRACK_BEGIN` was put, and those sent. -/
  announced : ℕ
  sent : ℕ
  deck : Player → Deck
  epoch : ℕ
  samples : Player → List Sample
  /-- The acquires so far, and those of which the play thread knows. -/
  acquires : ℕ
  acquiresTaken : ℕ
  /-- For each acquire the tracks whose first sample was played. -/
  started : ℕ → List ℕ
  /-- The `track_info` of the `TRACK_BEGIN`s taken in the play thread's acquire. -/
  taken : List (Option τ)
  mark : ℕ
  /-- A report made since a track last started has been handled. -/
  caughtUp : Bool
  assertFailed : Bool
  closed : List (AcquireLog τ)

inductive PlaybackInput (τ : Type)
  /-- The stream thread has stopped all players for an acquire. -/
  | acquire (app : String)
  | announce (contentLength : ℤ) (trackInfo : Option τ) (audioType : String)
  | sendTrack
  | event (e : StreamEvent τ)
  | rebuffer
  /-- A player decodes the beginning of its next track, or finds nothing in it. -/
  | decode (p : Player)
  | skip (p : Player)
  /-- A player plays the first sample of a track. -/
  | playSample (p : Player)
  | flush (p : Player)
  | poll (p : Player)
  | takeEvent
  /-- The play thread handles player states; `pick` is what it knows of each
  player's counter. -/
  | states (matched : List String) (view : Player → PlayerView) (pick : Player → Sample)
  | play (input : PlayInput τ)

/-- The `track_info` of a `PLAY_EVENT_TRACK_STARTED`. -/
def PlayEvent.started {τ : Type} : PlayEvent τ → Option (Option τ)
  | .trackStarted trackInfo => some trackInfo
  | _ => none

namespace PlayThread

variable {τ : Type}

def startedInfos (s : PlayThread τ) : List (Option τ) := s.playEvents.filterMap PlayEvent.started

/-- The player whose state counts in a message, if all players match. -/
def heard (s : PlayThread τ) (matched : List String) : Option Player :=
  if s.players.isSubsetOf matched then s.players.players.head? else none

/-- Whether the `assert` on `num_tracks_started` fails. -/
def assertFails (s : PlayThread τ) (view : Player → PlayerView) (matched : List String) : Bool :=
  (s.heard matched).any fun p =>
    let started := (view p).state.numTracksStarted
    decide (s.numTracksStarted < started) && decide (started ≠ s.numTracksStarted + 1)

end PlayThread

/-- What the play thread does besides taking stream events and player states. -/
def PlayInput.isOther {τ : Type} : PlayInput τ → Bool
  | .streamEvent _ | .playerStates _ _ => false
  | _ => true

/-- Events that `announce` and `acquire` put. -/
def StreamEvent.isMark {τ : Type} : StreamEvent τ → Bool
  | .acquireDone | .trackBegin _ _ _ => true
  | _ => false

namespace Playback

variable {τ : Type}

def emptyDeck : Deck := ⟨[], [], [], 0⟩

def init : Playback τ where
  play := .init
  eventCh := []
  announced := 0
  sent := 0
  deck := fun _ => emptyDeck
  epoch := 0
  samples := fun _ => []
  acquires := 0
  acquiresTaken := 0
  started := fun _ => []
  taken := []
  mark := 0
  caughtUp := true
  assertFailed := false
  closed := []

variable (s : Playback τ)

/-- The `track_info`s reported since the play thread's last `ACQUIRE_DONE`. -/
def infos : List (Option τ) := s.play.startedInfos.drop s.mark

/-- `stop_players` of all players, which are then sent the tracks `toStart`. -/
def stopAll (toStart : List ℕ) : Playback τ :=
  { s with deck := fun _ => { emptyDeck with toStart := toStart }, epoch := s.epoch + 1 }

def acquire (app : String) : Playback τ :=
  { s.stopAll [] with
    eventCh := s.eventCh ++ [.acquireStarted app, .acquireDone]
    announced := 0
    sent := 0
    acquires := s.acquires + 1 }

def announce (contentLength : ℤ) (trackInfo : Option τ) (audioType : String) : Playback τ :=
  { s with
    eventCh := s.eventCh ++ [.trackBegin contentLength trackInfo audioType]
    announced := s.announced + 1 }

def sendTrack : Playback τ :=
  { s with
    sent := s.sent + 1
    deck := fun p => { s.deck p with toStart := (s.deck p).toStart ++ [s.sent] } }

/-- `do_rebuffer` sends the current track once more. -/
def rebuffer : Playback τ :=
  { s.stopAll (if s.sent = 0 then [] else [s.sent - 1]) with
    eventCh := s.eventCh ++ [.rebuffer] }

def setDeck (p : Player) (d : Deck) : Playback τ :=
  { s with deck := Function.update s.deck p d }

/-- The first sample of track `i`. The start point of a track is forgotten when
that of another track is set, so only the last track decoded is counted. -/
def playSample (p : Player) (i : ℕ) (rest : List ℕ) : Playback τ :=
  let d := s.deck p
  let known := s.started s.acquires
  { s with
    deck := Function.update s.deck p
      { d with
        decoded := rest
        played := d.played ++ [i]
        counter := if rest = [] then d.counter + 1 else d.counter }
    started := Function.update s.started s.acquires (if i ∈ known then known else known ++ [i])
    caughtUp := s.caughtUp && decide (i ∈ known) }

def poll (p : Player) : Playback τ :=
  let d := s.deck p
  { s with
    samples := Function.update s.samples p
      (s.samples p ++ [⟨s.epoch, d.counter, d.played.getLast?⟩]) }

/-- The play thread has handled `e`. -/
def tookEvent (rest : List (StreamEvent τ)) (play : PlayThread τ) : StreamEvent τ → Playback τ
  | .acquireDone =>
    { s with
      play := play
      eventCh := rest
      acquiresTaken := s.acquiresTaken + 1
      taken := []
      mark := play.startedInfos.length
      closed := s.closed ++ [⟨s.infos, s.taken, s.started s.acquiresTaken⟩] }
  | .trackBegin _ trackInfo _ =>
    { s with play := play, eventCh := rest, taken := s.taken ++ [trackInfo] }
  | _ => { s with play := play, eventCh := rest }

/-- The states of the players, with the counters as they were reported. -/
def known (view : Player → PlayerView) (pick : Player → Sample) (p : Player) : PlayerView :=
  { view p with state := { (view p).state with numTracksStarted := (pick p).count } }

/-- The player heard had started the last track that the group has started. -/
def catchesUp (matched : List String) (pick : Player → Sample) : Bool :=
  (s.play.heard matched).any fun p =>
    decide ((pick p).epoch = s.epoch ∧ (pick p).last = (s.started s.acquires).getLast?)

def handledStates (matched : List String) (view : Player → PlayerView)
    (pick : Player → Sample) (play : PlayThread τ) : Playback τ :=
  { s with
    play := play
    caughtUp := s.caughtUp || s.catchesUp matched pick
    assertFailed := s.assertFailed || s.play.assertFails (known view pick) matched }

/-- A step of one player. -/
def playerStep : PlaybackInput τ → Option (Playback τ)
  | .decode p =>
    match (s.deck p).toStart with
    | [] => none
    | i :: rest =>
      some (s.setDeck p
        { s.deck p with toStart := rest, decoded := (s.deck p).decoded ++ [i] })
  | .skip p =>
    match (s.deck p).toStart with
    | [] => none
    | _ :: rest => some (s.setDeck p { s.deck p with toStart := rest })
  | .playSample p =>
    match (s.deck p).decoded with
    | [] => none
    | i :: rest => some (s.playSample p i rest)
  | .flush p => some (s.setDeck p { s.deck p with toStart := [], decoded := [] })
  | .poll p => some (s.poll p)
  | _ => none

/-- A step of the play thread. -/
def playStep : PlaybackInput τ → Option (Playback τ)
  | .takeEvent =>
    match s.eventCh with
    | [] => none
    | e :: rest => (s.play.step (.streamEvent e)).map fun play => s.tookEvent rest play e
  | .states matched view pick =>
    if ∀ p ∈ s.play.players.players, pick p ∈ s.samples p then
      (s.play.step (.playerStates matched (known view pick))).map
        (s.handledStates matched view pick)
    else none
  | .play input =>
    if input.isOther then (s.play.step input).map fun play => { s with play := play } else none
  | _ => none

def step : PlaybackInput τ → Option (Playback τ)
  | .acquire app => some (s.acquire app)
  -- a track is announced before it is sent, and sent before the next is announced
  | .announce contentLength trackInfo audioType =>
    if 0 < s.acquires ∧ s.sent = s.announced then
      some (s.announce contentLength trackInfo audioType)
    else none
  | .sendTrack => if s.sent < s.announced then some s.sendTrack else none
  | .event e => if e.isMark then none else some { s with eventCh := s.eventCh ++ [e] }
  | .rebuffer => if s.sent = s.announced then some s.rebuffer else none
  | .decode p => s.playerStep (.decode p)
  | .skip p => s.playerStep (.skip p)
  | .playSample p => s.playerStep (.playSample p)
  | .flush p => s.playerStep (.flush p)
  | .poll p => s.playerStep (.poll p)
  | .takeEvent => s.playStep .takeEvent
  | .states matched view pick => s.playStep (.states matched view pick)
  | .play input => s.playStep (.play input)

end Playback

/-- The play thread and the players as a transition system. -/
def playback (τ : Type) : System (Playback τ) (PlaybackInput τ) where
  init := .init
  step := Playback.step

end BeepMusic.Distributor
