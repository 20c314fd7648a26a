import BeepMusic.Lib.Number
import BeepMusic.Lib.System
import BeepMusic.Lib.Traversal

/-!
The volumes of the distributor: `state.players` and `master_volume`, which clients
see, and `volume_players`, the player objects that are told the gains. The tables
change in the `players_ch` branch of `state_thread` and in the ubus methods for
volumes; each of these runs without interruption. An error ends the process.
-/

namespace BeepMusic.Distributor

open Lib

def gainMax : ℕ := 2 ^ 16

def volumeToGainTable (vol : ℕ) : ℕ := gainMax * vol * vol * vol / (1000 * 1000 * 1000)

/-- The table is filled from volume 1000 down, so the smallest volume stays. -/
def gainToVolumeTable (gain : ℕ) : Option ℕ :=
  (List.range 1001).find? fun vol => volumeToGainTable vol = gain

/-- The entry of the first gain, from `gain` on, that has one. -/
def nearestVolume (gain : ℕ) : Option ℕ :=
  (List.range' gain (gainMax + 1 - gain)).findSome? gainToVolumeTable

/-- A player object of which a volume method asks for what is not there, or
`os.exit(1)`. -/
inductive VolumeError
  | noPlayer (id : String)
  | exit
  deriving DecidableEq

/-- `gain` in the range of the table. -/
def clampGain (gain : ℚ) : ℕ :=
  let gain := ⌊gain⌋
  if (gainMax : ℤ) < gain then gainMax else if gain < 0 then 0 else gain.toNat

def gainToVolume (trackVolumeScalar : ℤ) (gain : ℚ) : Except VolumeError Number :=
  match nearestVolume (clampGain gain) with
  | none => .error .exit
  | some volume => .ok (Number.num volume * 1000 / Number.num trackVolumeScalar).floor

def volumeToGain (trackVolumeScalar : ℤ) (volume : Number) : ℕ :=
  match (volume * Number.num trackVolumeScalar / 1000).floor with
  | .num q => if 0 ≤ q ∧ q ≤ 1000 then volumeToGainTable ⌊q⌋.toNat else volumeToGainTable 0
  | .inf _ | .nan => volumeToGainTable 0

/-- A player object, as far as volumes go. -/
structure VolumePlayer where
  id : String
  name : String
  gain : ℚ
  deriving DecidableEq

/-- An entry of `state.players`. -/
structure PlayerVolume where
  isMuted : Bool
  volume : Number
  name : String
  deriving DecidableEq

inductive VolumeUpdate
  | volumeChanged
  | deviceAdded (id : String)
  | deviceRemoved (id : String)
  | shutdownSource
  deriving DecidableEq

inductive VolumeReply
  | success
  | error (message : String)
  deriving DecidableEq

/-- The configuration, and the order in which `pairs` meets the keys of a table. -/
structure VolumeConfig where
  globalVolume : Bool
  localDeviceId : String
  defaultVolume : ℚ
  pairs : Enumeration String

structure Volumes where
  /-- `state.players`. -/
  players : List (String × PlayerVolume)
  volumePlayers : List VolumePlayer
  masterVolume : Number
  masterVolumeClientId : Option String
  localVolume : Number
  trackVolumeScalar : ℤ
  /-- What clients are sent, the gains that players are told, and the replies. -/
  updates : List VolumeUpdate
  calls : List (String × ℕ)
  replies : List VolumeReply
  failure : Option VolumeError
  deriving DecidableEq

/-- What is done with the tables, unless an error ends it. -/
abbrev VolumeM := Except VolumeError Volumes

inductive VolumeInput
  /-- `players_ch`. -/
  | players (ps : List VolumePlayer)
  | setVolume (players : List (String × ℚ))
  | adjustVolume (players : List (String × ℚ))
  | adjustLocalVolume (volume : ℤ)
  | setMasterVolume (volume : ℤ) (clientId : Option String)
  | setTrackVolumeScalar (volume : ℤ)
  | setMuted (players : List (String × Bool))
  /-- The stream thread resets the scalar in an acquire. -/
  | acquire

/-- `state.players[id]`. -/
def Volumes.lookup (s : Volumes) (id : String) : Option PlayerVolume :=
  s.players.lookup id

/-- `volume_players[id]`. -/
def Volumes.volumePlayer (s : Volumes) (id : String) : Option VolumePlayer :=
  s.volumePlayers.find? fun p => p.id = id

namespace Volumes

variable (cfg : VolumeConfig)

def init : Volumes where
  players := []
  volumePlayers := []
  masterVolume := .num cfg.defaultVolume
  masterVolumeClientId := some ""
  localVolume := 0
  trackVolumeScalar := 1000
  updates := []
  calls := []
  replies := []
  failure := none

def ids (s : Volumes) : List String := s.players.map Prod.fst

def volumeIds (s : Volumes) : List String := s.volumePlayers.map VolumePlayer.id

def triggerUpdate (u : VolumeUpdate) (s : Volumes) : Volumes :=
  { s with updates := s.updates ++ [u] }

def reply (r : VolumeReply) (s : Volumes) : Volumes := { s with replies := s.replies ++ [r] }

/-- `player:call('set_volume', ..)`, with gain zero for a muted player. -/
def callSetVolume (id : String) (volume : Number) (s : Volumes) : Volumes :=
  let volume := if (s.lookup id).any PlayerVolume.isMuted then 0 else volume
  { s with calls := s.calls ++ [(id, volumeToGain s.trackVolumeScalar volume)] }

/-- Change an entry of `state.players`. -/
def modify (id : String) (f : PlayerVolume → PlayerVolume) (s : Volumes) : Volumes :=
  { s with players := s.players.map fun e => if e.1 = id then (e.1, f e.2) else e }

/-- The entry gets a volume and a name; a new one is not muted. -/
def setEntry (id name : String) (volume : Number) (s : Volumes) : Volumes :=
  match s.lookup id with
  | some _ => s.modify id fun st => { st with volume := volume, name := name }
  | none => { s with players := s.players ++ [(id, ⟨false, volume, name⟩)] }

/-- The largest volume, or `0.1` in place of zero. -/
def maxVolume (s : Volumes) : Number :=
  let maxVol :=
    s.players.foldl (fun maxVol e => if maxVol < e.2.volume then e.2.volume else maxVol) 0
  if maxVol = 0 then .num (1 / 10) else maxVol

def updatePlayerStateVolume (id name : String) (volume : Number) (noTriggerUpdate : Bool)
    (s : Volumes) : Volumes :=
  let s := s.setEntry id name volume
  let s := if id = cfg.localDeviceId then { s with localVolume := volume } else s
  if cfg.globalVolume && !noTriggerUpdate then s.triggerUpdate .volumeChanged
  else
    let s := { s with masterVolume := s.maxVolume }
    if noTriggerUpdate then s
    else { s with masterVolumeClientId := some "" }.triggerUpdate .volumeChanged

def clampVolume (volume : Number) : Number := Number.clamp (.num 0) (.num 1000) volume

/-- The part that `set_player_volume` and `adjust_player_volume` share. -/
def changeVolume (id : String) (volume : Number) (noTriggerUpdate : Bool) (s : Volumes) : VolumeM :=
  match s.volumePlayer id with
  | none => .error (.noPlayer id)
  | some player =>
    .ok ((s.updatePlayerStateVolume cfg id player.name volume noTriggerUpdate).callSetVolume
      id volume)

def setPlayerVolume (id : String) (volume : Number) (noTriggerUpdate : Bool) (s : Volumes) :
    VolumeM :=
  s.changeVolume cfg id (clampVolume volume) noTriggerUpdate

def setPlayerIsMuted (id : String) (isMuted : Bool) (s : Volumes) : VolumeM :=
  match s.lookup id with
  | none => .ok s
  | some st =>
    (s.modify id fun st => { st with isMuted := isMuted }).setPlayerVolume cfg id st.volume false

/-- The body of the loop of `set_master_volume`, for single volumes. -/
def scaleVolume (volumeRatio : Number) (s : Volumes) (id : String) : VolumeM :=
  match s.lookup id with
  | none => .ok s
  | some st =>
    let volume := if st.volume < .num (1 / 10) then .num (1 / 10) else st.volume
    (s.modify id fun st => { st with volume := volume }).setPlayerVolume cfg id
      (volumeRatio * volume) true

/-- The loops of `set_master_volume`. -/
def setAllVolumes (volume : Number) (s : Volumes) : VolumeM :=
  if cfg.globalVolume then
    (cfg.pairs.order s.ids).foldlM (fun s id => s.setPlayerVolume cfg id volume true) s
  else
    let volume := if volume = 0 then .num (1 / 10) else volume
    let volumeRatio := volume / s.masterVolume
    (cfg.pairs.order s.ids).foldlM (scaleVolume cfg volumeRatio) s

def setMasterVolume (volume : Number) (clientId : Option String) (s : Volumes) : VolumeM :=
  (s.setAllVolumes cfg volume).map fun s =>
    { s with masterVolumeClientId := clientId }.triggerUpdate .volumeChanged

def adjustPlayerVolume (id : String) (volumeDelta : Number) (s : Volumes) : VolumeM :=
  match s.lookup id with
  | none => .ok s
  | some st =>
    let volume := clampVolume (st.volume + volumeDelta)
    if cfg.globalVolume then s.setMasterVolume cfg volume none
    else s.changeVolume cfg id volume false

def setTrackVolumeScalar (volume : ℤ) (s : Volumes) : VolumeM :=
  { s with trackVolumeScalar := volume }.setMasterVolume cfg s.masterVolume none

/-- The volume of a player that is new in `state.players`. -/
def firstVolume (s : Volumes) (player : VolumePlayer) : Except VolumeError Number :=
  if cfg.globalVolume then .ok s.masterVolume
  else gainToVolume s.trackVolumeScalar player.gain

/-- The new player with its volume. -/
def addWithVolume (player : VolumePlayer) (s : Volumes) (volume : Number) : VolumeM :=
  let s := (s.updatePlayerStateVolume cfg player.id player.name volume true).triggerUpdate
    (.deviceAdded player.id)
  if cfg.globalVolume then s.setMasterVolume cfg s.masterVolume none else .ok s

/-- The body of the first loop of the `players_ch` branch. -/
def addPlayer (s : Volumes) (player : VolumePlayer) : VolumeM :=
  match s.lookup player.id with
  | some _ => .ok s
  | none => (s.firstVolume cfg player).bind (s.addWithVolume cfg player)

/-- The second loop. -/
def removePlayers (s : Volumes) : Volumes :=
  let gone := (cfg.pairs.order s.ids).filter fun id => id ∉ s.volumeIds
  { s with
    players := s.players.filter fun e => e.1 ∈ s.volumeIds
    updates := s.updates ++ gone.map .deviceRemoved }

def updatePlayers (ps : List VolumePlayer) (s : Volumes) : VolumeM :=
  (ps.foldlM (addPlayer cfg) { s with volumePlayers := ps }).map fun s =>
    let s := s.removePlayers cfg
    if ps.isEmpty then s.triggerUpdate .shutdownSource else s

def outOfRange : String := "Volume out of range [0, 1000]"

/-- The arguments of a method for several players: the first entry that is wrong. -/
def checkPlayers {α : Type} (s : Volumes) (players : List (String × α)) (inRange : α → Bool) :
    Option String :=
  players.findSome? fun (id, a) =>
    if s.volumePlayer id = none then some ("Invalid player key: " ++ id)
    else if inRange a then none
    else some (outOfRange ++ " for key: " ++ id)

/-- A method whose arguments have been checked. -/
def answer (check : Option String) (action : VolumeM) (s : Volumes) : VolumeM :=
  match check with
  | some message => .ok (s.reply (.error message))
  | none => action.map (reply .success)

def inRange (lo hi volume : ℚ) : Bool := decide (lo ≤ volume ∧ volume ≤ hi)

/-- The ubus method `set_volume`. -/
def setVolumeMethod (players : List (String × ℚ)) (s : Volumes) : VolumeM :=
  s.answer (s.checkPlayers players (inRange 0 1000)) <|
    if cfg.globalVolume then
      match players with
      | [] => .ok s
      | (_, volume) :: _ => s.setMasterVolume cfg (.num volume) none
    else players.foldlM (fun s (id, volume) => s.setPlayerVolume cfg id (.num volume) false) s

def adjustVolumeMethod (players : List (String × ℚ)) (s : Volumes) : VolumeM :=
  s.answer (s.checkPlayers players (inRange (-1000) 1000)) <|
    players.foldlM (fun s (id, volume) => s.adjustPlayerVolume cfg id (.num volume)) s

def adjustLocalVolumeMethod (volume : ℤ) (s : Volumes) : VolumeM :=
  s.answer (if inRange (-1000) 1000 volume then none else some outOfRange) <|
    match s.volumePlayer cfg.localDeviceId with
    | none => .ok s
    | some _ => s.adjustPlayerVolume cfg cfg.localDeviceId (.num volume)

def setMasterVolumeMethod (volume : ℤ) (clientId : Option String) (s : Volumes) : VolumeM :=
  s.answer (if inRange 0 1000 volume then none else some outOfRange) <|
    s.setMasterVolume cfg (.num volume) (some (clientId.getD ""))

def setTrackVolumeScalarMethod (volume : ℤ) (s : Volumes) : VolumeM :=
  s.answer (if inRange 0 1000 volume then none else some outOfRange) <|
    s.setTrackVolumeScalar cfg volume

def setMutedMethod (players : List (String × Bool)) (s : Volumes) : VolumeM :=
  s.answer (s.checkPlayers players fun _ => true) <|
    players.foldlM (fun s (id, isMuted) => s.setPlayerIsMuted cfg id isMuted) s

def handle (s : Volumes) : VolumeInput → VolumeM
  | .players ps => s.updatePlayers cfg ps
  | .setVolume players => s.setVolumeMethod cfg players
  | .adjustVolume players => s.adjustVolumeMethod cfg players
  | .adjustLocalVolume volume => s.adjustLocalVolumeMethod cfg volume
  | .setMasterVolume volume clientId => s.setMasterVolumeMethod cfg volume clientId
  | .setTrackVolumeScalar volume => s.setTrackVolumeScalarMethod cfg volume
  | .setMuted players => s.setMutedMethod cfg players
  | .acquire => s.setTrackVolumeScalar cfg 1000

def step (s : Volumes) (input : VolumeInput) : Option Volumes :=
  match s.failure with
  | some _ => none
  | none =>
    match s.handle cfg input with
    | .ok s' => some s'
    | .error e => some { s with failure := some e }

end Volumes

/-- The volumes of the distributor as a transition system. -/
def volumes (cfg : VolumeConfig) : System Volumes VolumeInput where
  init := .init cfg
  step := Volumes.step cfg

end BeepMusic.Distributor
