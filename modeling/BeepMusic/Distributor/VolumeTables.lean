import BeepMusic.Distributor.Volume

/-!
`state.players` and `volume_players` have the same players between events. In an
event for a new set of players they differ, and with a global volume the loops over
one of them look up players in the other: then an update must not bring one player
and take another away.
-/

namespace BeepMusic.Distributor

open Lib List Option

theorem gainToVolumeTable_gainMax : gainToVolumeTable gainMax = some 1000 := by decide +kernel

/-- The search always ends at an entry. -/
theorem nearestVolume_isSome {gain : ℕ} (h : gain ≤ gainMax) : (nearestVolume gain).isSome := by
  rw [nearestVolume, findSome?_isSome_iff]
  refine ⟨gainMax, mem_range'_1.mpr (by omega), ?_⟩
  rw [gainToVolumeTable_gainMax]
  rfl

theorem clampGain_le (gain : ℚ) : clampGain gain ≤ gainMax := by
  simp only [clampGain]
  split_ifs <;> omega

theorem gainToVolume_ok (trackVolumeScalar : ℤ) (gain : ℚ) :
    ∃ volume, gainToVolume trackVolumeScalar gain = .ok volume := by
  obtain ⟨volume, hvolume⟩ :=
    isSome_iff_exists.mp (nearestVolume_isSome (clampGain_le gain))
  rw [gainToVolume, hvolume]
  exact ⟨_, rfl⟩

namespace Volumes

variable {cfg : VolumeConfig} {s s' s'' : Volumes} {id name : String} {volume : Number}

/-- Between events both tables have the same ids. -/
def SameIds (s : Volumes) : Prop := ∀ id, id ∈ s.ids ↔ id ∈ s.volumeIds

/-- With a global volume a set of players that has a new one has all the old ones. -/
def AddsOnly (cfg : VolumeConfig) (s : Volumes) : VolumeInput → Prop
  | .players ps =>
    cfg.globalVolume = true → (∃ p ∈ ps, p.id ∉ s.ids) →
      ∀ id ∈ s.ids, id ∈ ps.map VolumePlayer.id
  | _ => True

instance (cfg : VolumeConfig) (s : Volumes) (input : VolumeInput) :
    Decidable (s.AddsOnly cfg input) :=
  match input with
  | .players _ => inferInstanceAs (Decidable (_ → _ → _))
  | .setVolume _ | .adjustVolume _ | .adjustLocalVolume _ | .setMasterVolume _ _
  | .setTrackVolumeScalar _ | .setMuted _ | .acquire => .isTrue trivial

/-- Only volumes have changed. -/
structure Stays (s s' : Volumes) : Prop where
  ids : ∀ id, id ∈ s'.ids ↔ id ∈ s.ids
  volumePlayers : s'.volumePlayers = s.volumePlayers
  failure : s'.failure = s.failure

/-- And the players are in the same order. -/
structure Keeps (s s' : Volumes) : Prop extends Stays s s' where
  order : s'.ids = s.ids

theorem keeps_of_order (hids : s'.ids = s.ids) (hvolume : s'.volumePlayers = s.volumePlayers)
    (hfailure : s'.failure = s.failure) : s.Keeps s' :=
  ⟨⟨fun id => by rw [hids], hvolume, hfailure⟩, hids⟩

theorem Keeps.refl (s : Volumes) : s.Keeps s := keeps_of_order rfl rfl rfl

theorem Keeps.trans (h : s.Keeps s') (h' : s'.Keeps s'') : s.Keeps s'' :=
  keeps_of_order (h'.order.trans h.order) (h'.volumePlayers.trans h.volumePlayers)
    (h'.failure.trans h.failure)

theorem Keeps.volumeIds (h : s.Keeps s') : s'.volumeIds = s.volumeIds := by
  rw [Volumes.volumeIds, h.volumePlayers, Volumes.volumeIds]

theorem Keeps.sameIds (h : s.Keeps s') (hs : s.SameIds) : s'.SameIds := by
  intro id
  rw [h.order, h.volumeIds]
  exact hs id

theorem mem_ids_iff : id ∈ s.ids ↔ ∃ st, s.lookup id = some st := by
  rw [← isSome_iff_exists, lookup, lookup_isSome_iff, ids, List.mem_map]
  refine exists_congr fun e => and_congr_right fun _ => ?_
  rw [beq_iff_eq, eq_comm]

theorem mem_volumeIds_iff : id ∈ s.volumeIds ↔ ∃ p, s.volumePlayer id = some p := by
  rw [← isSome_iff_exists, volumePlayer, find?_isSome, volumeIds, List.mem_map]
  simp

variable (f : PlayerVolume → PlayerVolume)

theorem ids_modify : (s.modify id f).ids = s.ids := by
  rw [ids, modify, List.map_map, ids]
  refine map_congr_left fun e _ => ?_
  simp only [Function.comp_apply]
  split <;> rfl

theorem keeps_modify : s.Keeps (s.modify id f) :=
  keeps_of_order (ids_modify f) rfl rfl

theorem keeps_of_eq (hplayers : s'.players = s.players)
    (hvolume : s'.volumePlayers = s.volumePlayers) (hfailure : s'.failure = s.failure) :
    s.Keeps s' :=
  keeps_of_order (by rw [ids, hplayers, ids]) hvolume hfailure

theorem keeps_setEntry (h : id ∈ s.ids) : s.Keeps (s.setEntry id name volume) := by
  obtain ⟨st, hst⟩ := mem_ids_iff.mp h
  rw [setEntry, hst]
  exact keeps_modify _

theorem keeps_updatePlayerStateVolume (noTriggerUpdate : Bool) :
    (s.setEntry id name volume).Keeps
      (s.updatePlayerStateVolume cfg id name volume noTriggerUpdate) := by
  simp only [updatePlayerStateVolume]
  split_ifs <;> exact keeps_of_eq rfl rfl rfl

/-- A player that is in both tables can be given a volume. -/
theorem changeVolume_ok (noTriggerUpdate : Bool) (hid : id ∈ s.ids) (hvolume : id ∈ s.volumeIds) :
    ∃ s', s.changeVolume cfg id volume noTriggerUpdate = .ok s' ∧ s.Keeps s' := by
  obtain ⟨p, hp⟩ := mem_volumeIds_iff.mp hvolume
  rw [changeVolume, hp]
  refine ⟨_, rfl, ?_⟩
  have hentry : s.Keeps (s.setEntry id p.name volume) := keeps_setEntry hid
  exact (hentry.trans (keeps_updatePlayerStateVolume noTriggerUpdate)).trans
    (keeps_of_eq rfl rfl rfl)

theorem setPlayerVolume_modify_ok (noTriggerUpdate : Bool)
    (hid : id ∈ s.ids) (hvolume : id ∈ s.volumeIds) :
    ∃ s', (s.modify id f).setPlayerVolume cfg id volume noTriggerUpdate = .ok s' ∧
      s.Keeps s' := by
  have hin : id ∈ (s.modify id f).ids := by rwa [ids_modify]
  obtain ⟨s', hrun, hkeeps⟩ :
      ∃ s', (s.modify id f).changeVolume cfg id (clampVolume volume) noTriggerUpdate = .ok s' ∧
        (s.modify id f).Keeps s' := changeVolume_ok noTriggerUpdate hin hvolume
  exact ⟨s', hrun, (keeps_modify f).trans hkeeps⟩

/-- A loop over players that are in both tables. -/
theorem foldlM_keeps {α : Type} {f : Volumes → α → VolumeM} {l : List α}
    (hstep : ∀ a ∈ l, ∀ s', s.Keeps s' → ∃ s'', f s' a = .ok s'' ∧ s'.Keeps s'') :
    ∃ s', l.foldlM f s = .ok s' ∧ s.Keeps s' :=
  foldlM_ok (Keeps.refl s) fun a ha s' hs' => by
    obtain ⟨s'', hrun, hkeeps⟩ := hstep a ha s' hs'
    exact ⟨s'', hrun, hs'.trans hkeeps⟩

/-- All entries of `state.players` have their player object. -/
theorem setAllVolumes_ok (h : ∀ id ∈ s.ids, id ∈ s.volumeIds) :
    ∃ s', s.setAllVolumes cfg volume = .ok s' ∧ s.Keeps s' := by
  simp only [setAllVolumes]
  split
  · refine foldlM_keeps fun id hid s' hs' => ?_
    have hold := cfg.pairs.mem_order.mp hid
    exact changeVolume_ok true (hs'.order ▸ hold) (hs'.volumeIds ▸ h id hold)
  · refine foldlM_keeps fun id hid s' hs' => ?_
    have hold := cfg.pairs.mem_order.mp hid
    have hin : id ∈ s'.ids := hs'.order ▸ hold
    obtain ⟨st, hst⟩ := mem_ids_iff.mp hin
    simp only [scaleVolume, hst]
    exact setPlayerVolume_modify_ok _ true hin (hs'.volumeIds ▸ h id hold)

theorem setMasterVolume_ok (clientId : Option String) (h : ∀ id ∈ s.ids, id ∈ s.volumeIds) :
    ∃ s', s.setMasterVolume cfg volume clientId = .ok s' ∧ s.Keeps s' := by
  obtain ⟨s', hrun, hkeeps⟩ : ∃ s', s.setAllVolumes cfg volume = .ok s' ∧ s.Keeps s' :=
    setAllVolumes_ok h
  rw [setMasterVolume, hrun]
  exact ⟨_, rfl, hkeeps.trans (keeps_of_eq rfl rfl rfl)⟩

theorem adjustPlayerVolume_ok (hs : s.SameIds) :
    ∃ s', s.adjustPlayerVolume cfg id volume = .ok s' ∧ s.Keeps s' := by
  rw [adjustPlayerVolume]
  split
  · exact ⟨s, rfl, Keeps.refl s⟩
  · rename_i st hst
    have hid : id ∈ s.ids := mem_ids_iff.mpr ⟨st, hst⟩
    split
    · exact setMasterVolume_ok none fun i => (hs i).mp
    · exact changeVolume_ok false hid ((hs id).mp hid)

theorem setPlayerIsMuted_ok (isMuted : Bool) (hs : s.SameIds) :
    ∃ s', s.setPlayerIsMuted cfg id isMuted = .ok s' ∧ s.Keeps s' := by
  rw [setPlayerIsMuted]
  split
  · exact ⟨s, rfl, Keeps.refl s⟩
  · rename_i st hst
    have hid : id ∈ s.ids := mem_ids_iff.mpr ⟨st, hst⟩
    exact setPlayerVolume_modify_ok _ false hid ((hs id).mp hid)

theorem setTrackVolumeScalar_ok (scalar : ℤ) (hs : s.SameIds) :
    ∃ s', s.setTrackVolumeScalar cfg scalar = .ok s' ∧ s.Keeps s' := by
  have hscaled : s.Keeps { s with trackVolumeScalar := scalar } := keeps_of_eq rfl rfl rfl
  obtain ⟨s', hrun, hkeeps⟩ := @setMasterVolume_ok cfg { s with trackVolumeScalar := scalar }
    s.masterVolume none fun i => (hs i).mp
  exact ⟨s', hrun, hscaled.trans hkeeps⟩

theorem answer_ok {check : Option String} {action : VolumeM}
    (h : check = none → ∃ s', action = .ok s' ∧ s.Keeps s') :
    ∃ s', s.answer check action = .ok s' ∧ s.Keeps s' := by
  cases hcheck : check with
  | some message => exact ⟨_, rfl, keeps_of_eq rfl rfl rfl⟩
  | none =>
    obtain ⟨s', rfl, hkeeps⟩ := h hcheck
    exact ⟨_, rfl, hkeeps.trans (keeps_of_eq rfl rfl rfl)⟩

/-- The keys of a request that passes its check are player objects. -/
theorem mem_volumeIds_of_check {α : Type} {players : List (String × α)} {inRange : α → Bool}
    (h : s.checkPlayers players inRange = none) : ∀ e ∈ players, e.1 ∈ s.volumeIds := by
  intro e he
  have hnone := findSome?_eq_none_iff.mp h e he
  rw [mem_volumeIds_iff, ← ne_none_iff_exists']
  intro hmissing
  simp [hmissing] at hnone

/-- The methods find every player they look up. -/
theorem handle_ok {input : VolumeInput} (hs : s.SameIds) (hinput : ∀ ps, input ≠ .players ps) :
    ∃ s', s.handle cfg input = .ok s' ∧ s.Keeps s' := by
  cases input with
  | players ps => exact absurd rfl (hinput ps)
  | setVolume players =>
    refine answer_ok fun hcheck => ?_
    have hkeys := mem_volumeIds_of_check hcheck
    split
    · split
      · exact ⟨s, rfl, Keeps.refl s⟩
      · exact setMasterVolume_ok none fun i => (hs i).mp
    · refine foldlM_keeps fun e he s' hs' => ?_
      have hid := hkeys e he
      exact changeVolume_ok false (hs'.order ▸ (hs _).mpr hid) (hs'.volumeIds ▸ hid)
  | adjustVolume players =>
    exact answer_ok fun _ => foldlM_keeps fun e _ s' hs' =>
      adjustPlayerVolume_ok (hs'.sameIds hs)
  | adjustLocalVolume volume =>
    refine answer_ok fun _ => ?_
    split
    · exact ⟨s, rfl, Keeps.refl s⟩
    · exact adjustPlayerVolume_ok hs
  | setMasterVolume volume clientId =>
    exact answer_ok fun _ => setMasterVolume_ok _ fun i => (hs i).mp
  | setTrackVolumeScalar volume => exact answer_ok fun _ => setTrackVolumeScalar_ok volume hs
  | setMuted players =>
    exact answer_ok fun _ => foldlM_keeps fun e _ s' hs' =>
      setPlayerIsMuted_ok e.2 (hs'.sameIds hs)
  | acquire => exact setTrackVolumeScalar_ok 1000 hs

theorem mem_ids_setEntry {i : String} :
    i ∈ (s.setEntry id name volume).ids ↔ i ∈ s.ids ∨ i = id := by
  cases hst : s.lookup id with
  | some st =>
    have hid : id ∈ s.ids := mem_ids_iff.mpr ⟨st, hst⟩
    rw [(keeps_setEntry hid).order]
    exact ⟨.inl, fun h => h.elim (fun hi => hi) fun heq => heq ▸ hid⟩
  | none => simp [setEntry, hst, ids]

theorem volumePlayers_setEntry : (s.setEntry id name volume).volumePlayers = s.volumePlayers := by
  rw [setEntry]
  split <;> rfl

theorem failure_setEntry : (s.setEntry id name volume).failure = s.failure := by
  rw [setEntry]
  split <;> rfl

/-- Where the first loop of an update is: `old` is what was there before. -/
structure Adding (cfg : VolumeConfig) (ps : List VolumePlayer) (old s : Volumes) : Prop where
  volumePlayers : s.volumePlayers = ps
  failure : s.failure = none
  grows : ∀ id ∈ old.ids, id ∈ s.ids
  -- with a global volume nothing is added unless all entries have their player
  covered : cfg.globalVolume = true → (∃ p ∈ ps, p.id ∉ old.ids) →
    ∀ id ∈ s.ids, id ∈ ps.map VolumePlayer.id

variable {ps : List VolumePlayer} {old : Volumes}

theorem Adding.keeps (h : Adding cfg ps old s) (hs : s.Keeps s') : Adding cfg ps old s' where
  volumePlayers := hs.volumePlayers.trans h.volumePlayers
  failure := hs.failure.trans h.failure
  grows id hid := hs.order ▸ h.grows id hid
  covered hglobal hnew id hid := h.covered hglobal hnew id (hs.order ▸ hid)

theorem Adding.setEntry {p : VolumePlayer} (h : Adding cfg ps old s) (hp : p ∈ ps) :
    Adding cfg ps old (s.setEntry p.id p.name volume) where
  volumePlayers := volumePlayers_setEntry.trans h.volumePlayers
  failure := failure_setEntry.trans h.failure
  grows id hid := mem_ids_setEntry.mpr (.inl (h.grows id hid))
  covered hglobal hnew id hid := by
    rcases mem_ids_setEntry.mp hid with hold | rfl
    · exact h.covered hglobal hnew id hold
    · exact List.mem_map_of_mem hp

theorem addPlayer_ok {p : VolumePlayer} (h : Adding cfg ps old s) (hp : p ∈ ps) :
    ∃ s', s.addPlayer cfg p = .ok s' ∧ Adding cfg ps old s' ∧
      p.id ∈ s'.ids ∧ ∀ q : VolumePlayer, q.id ∈ s.ids → q.id ∈ s'.ids := by
  rw [addPlayer]
  split
  · rename_i st hst
    exact ⟨s, rfl, h, mem_ids_iff.mpr ⟨st, hst⟩, fun _ hq => hq⟩
  · rename_i hnone
    have hfresh : p.id ∉ s.ids := by simp [mem_ids_iff, hnone]
    obtain ⟨volume, hvolume⟩ : ∃ volume, s.firstVolume cfg p = .ok volume := by
      rw [firstVolume]
      split
      · exact ⟨_, rfl⟩
      · exact gainToVolume_ok _ _
    -- the entry is there before any loop over the entries
    have hentry : Adding cfg ps old (s.setEntry p.id p.name volume) := h.setEntry hp
    have hupdate : (s.setEntry p.id p.name volume).Keeps
        ((s.updatePlayerStateVolume cfg p.id p.name volume true).triggerUpdate
          (.deviceAdded p.id)) :=
      (keeps_updatePlayerStateVolume true).trans (keeps_of_eq rfl rfl rfl)
    have hadded := hentry.keeps hupdate
    obtain ⟨s', hrun, hkeeps⟩ : ∃ s', s.addWithVolume cfg p volume = .ok s' ∧
        (s.setEntry p.id p.name volume).Keeps s' := by
      simp only [addWithVolume]
      split
      · rename_i hglobal
        obtain ⟨s', hrun, hkeeps⟩ := @setMasterVolume_ok cfg _ _ none fun id hid => by
          rw [volumeIds, hadded.volumePlayers]
          exact hadded.covered hglobal ⟨p, hp, fun hin => hfresh (h.grows _ hin)⟩ id hid
        exact ⟨s', hrun, hupdate.trans hkeeps⟩
      · exact ⟨_, rfl, hupdate⟩
    refine ⟨s', ?_, hentry.keeps hkeeps, ?_, fun q hq => ?_⟩
    · rw [hvolume]
      exact hrun
    · exact hkeeps.order ▸ mem_ids_setEntry.mpr (.inr rfl)
    · exact hkeeps.order ▸ mem_ids_setEntry.mpr (.inl hq)

theorem sameIds_removePlayers (h : ∀ id ∈ s.volumeIds, id ∈ s.ids) :
    (s.removePlayers cfg).SameIds := by
  intro id
  have hids : id ∈ (s.removePlayers cfg).ids ↔ id ∈ s.ids ∧ id ∈ s.volumeIds := by
    simp only [removePlayers, ids, List.mem_map, mem_filter, decide_eq_true_eq]
    constructor
    · rintro ⟨e, ⟨he, hin⟩, rfl⟩
      exact ⟨⟨e, he, rfl⟩, hin⟩
    · rintro ⟨⟨e, he, rfl⟩, hin⟩
      exact ⟨e, ⟨he, hin⟩, rfl⟩
  rw [hids]
  exact ⟨fun hin => hin.2, fun hin => ⟨h id hin, hin⟩⟩

theorem updatePlayers_ok (hfailure : s.failure = none) (hok : s.AddsOnly cfg (.players ps)) :
    ∃ s', s.updatePlayers cfg ps = .ok s' ∧ s'.SameIds ∧ s'.failure = none := by
  have hstart : Adding cfg ps s { s with volumePlayers := ps } := ⟨rfl, hfailure, fun _ h => h, hok⟩
  obtain ⟨s', hrun, hadded, hall, -⟩ :=
    foldlM_visits (fun (p : VolumePlayer) (s : Volumes) => p.id ∈ s.ids) hstart
      fun p hp s' hs' => addPlayer_ok hs' hp
  have hsame : (s'.removePlayers cfg).SameIds := by
    refine sameIds_removePlayers fun id hid => ?_
    rw [volumeIds, hadded.volumePlayers] at hid
    obtain ⟨p, hp, rfl⟩ := List.mem_map.mp hid
    exact hall p hp
  rw [updatePlayers, hrun]
  refine ⟨_, rfl, ?_, ?_⟩
  · split
    · exact hsame
    · exact hsame
  · split <;> exact hadded.failure

theorem step_sameIds {input : VolumeInput} (hfailure : s.failure = none) (hs : s.SameIds)
    (hok : s.AddsOnly cfg input) (hstep : s.step cfg input = some s') :
    s'.failure = none ∧ s'.SameIds := by
  simp only [step, hfailure] at hstep
  by_cases hinput : ∃ ps, input = .players ps
  · obtain ⟨ps, rfl⟩ := hinput
    obtain ⟨s'', hrun, hsame, hnone⟩ := updatePlayers_ok hfailure hok
    rw [handle, hrun] at hstep
    exact Option.some.inj hstep ▸ ⟨hnone, hsame⟩
  · obtain ⟨s'', hrun, hkeeps⟩ : ∃ s'', s.handle cfg input = .ok s'' ∧ s.Keeps s'' :=
      handle_ok hs fun ps heq => hinput ⟨ps, heq⟩
    rw [hrun] at hstep
    cases hstep
    exact ⟨hkeeps.failure.trans hfailure, hkeeps.sameIds hs⟩

end Volumes

/-- No player is looked up that is not there, and between events the tables have
the same players, in every run whose updates with a global volume do not both bring
and take away players. -/
theorem sameIds_of_addsOnly (cfg : VolumeConfig) (s : Volumes)
    (h : (volumes cfg).ReachableUnder (Volumes.AddsOnly cfg) s) :
    s.failure = none ∧ s.SameIds := by
  refine h.invariant (I := fun s => s.failure = none ∧ s.SameIds) ⟨rfl, fun _ => .rfl⟩ ?_
  rintro s input s' ⟨hfailure, hs⟩ hok hstep
  exact Volumes.step_sameIds hfailure hs hok hstep

/-- A configuration with the default volume. -/
def defaultConfig (globalVolume : Bool) : VolumeConfig := ⟨globalVolume, "a", 500, .inOrder⟩

/-- A player joins another one, which then leaves. -/
def joinThenLeave : List VolumeInput :=
  [.players [⟨"a", "A", 0⟩], .players [⟨"a", "A", 0⟩, ⟨"b", "B", 0⟩], .players [⟨"b", "B", 0⟩]]

theorem sameIds_join_then_leave :
    ∃ s, (volumes (defaultConfig true)).runFrom (.init (defaultConfig true)) joinThenLeave =
        some s ∧ s.ids = ["b"] ∧ s.failure = none ∧ s.SameIds := by
  refine ⟨_, rfl, rfl, sameIds_of_addsOnly (defaultConfig true) _ ?_⟩
  exact System.ReachableUnder.runFrom joinThenLeave .init (by decide +kernel) rfl

/-- One update replaces a player by another one. -/
theorem replaced_player_looked_up :
    ∃ s, (volumes (defaultConfig true)).Reachable s ∧ s.failure = some (.noPlayer "a") := by
  refine ⟨_, System.Reachable.runFrom [.players [⟨"a", "A", 0⟩], .players [⟨"b", "B", 0⟩]]
    .init rfl, rfl⟩

end BeepMusic.Distributor
