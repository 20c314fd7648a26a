import BeepMusic.Distributor.VolumeTables

/-!
Volumes stay between 0 and 1000, and the master volume stays positive, as long as
no player joins with a gain that the track volume scalar cannot have produced: the
volume of such a player is its gain's volume divided by the scalar, and that is not
cut off.
-/

namespace BeepMusic.Distributor

open Lib List

variable {v w gain : ℕ}

theorem volumeToGainTable_mono (h : v ≤ w) : volumeToGainTable v ≤ volumeToGainTable w := by
  simp only [volumeToGainTable, mul_assoc]
  gcongr

theorem gainToVolumeTable_isSome {vol : ℕ} (h : vol ≤ 1000) :
    (gainToVolumeTable (volumeToGainTable vol)).isSome := by
  rw [gainToVolumeTable, find?_isSome]
  exact ⟨vol, mem_range.mpr (by omega), by simp⟩

/-- The smallest volume with that gain. -/
theorem le_of_gainToVolumeTable (h : gainToVolumeTable gain = some v) (hw : w ≤ 1000)
    (hgain : volumeToGainTable w = gain) : v ≤ w := by
  obtain ⟨-, before, after, hsplit, hnone⟩ := find?_eq_some_iff_append.mp h
  have hsorted : (before ++ v :: after).Pairwise (· < ·) := hsplit ▸ pairwise_lt_range
  have hmem : w ∈ before ++ v :: after := hsplit ▸ mem_range.mpr (by omega)
  rcases mem_append.mp hmem with hin | hin
  · simpa [hgain] using hnone w hin
  · rcases mem_cons.mp hin with heq | hin
    · omega
    · have hvw := (pairwise_cons.mp (pairwise_append.mp hsorted).2.1).1 w hin
      omega

theorem volumeToGainTable_of_gainToVolumeTable (h : gainToVolumeTable gain = some v) :
    volumeToGainTable v = gain := by
  simpa using find?_some h

/-- No volume above `w` is found for a gain that `w` exceeds. -/
theorem nearestVolume_le (h : nearestVolume gain = some v) (hw : w ≤ 1000)
    (hgain : gain ≤ volumeToGainTable w) : v ≤ w := by
  obtain ⟨before, i, after, hsplit, hi, hnone⟩ := findSome?_eq_some_iff.mp h
  have hmax : volumeToGainTable w ≤ gainMax := by
    calc
      volumeToGainTable w ≤ volumeToGainTable 1000 := volumeToGainTable_mono hw
      _ = gainMax := by decide +kernel
  -- the gain of `w` has an entry, so the search ends there at the latest
  have hle : i ≤ volumeToGainTable w := by
    have hmem : volumeToGainTable w ∈ before ++ i :: after :=
      hsplit ▸ mem_range'_1.mpr (by omega)
    have hsorted : (before ++ i :: after).Pairwise (· < ·) := hsplit ▸ pairwise_lt_range'
    rcases mem_append.mp hmem with hin | hin
    · have hsome := gainToVolumeTable_isSome hw
      rw [hnone _ hin] at hsome
      cases hsome
    · rcases mem_cons.mp hin with heq | hin
      · exact heq.ge
      · exact ((pairwise_cons.mp (pairwise_append.mp hsorted).2.1).1 _ hin).le
  have hv := volumeToGainTable_of_gainToVolumeTable hi
  by_contra hlt
  have hmono : volumeToGainTable w ≤ volumeToGainTable v := volumeToGainTable_mono (by omega)
  exact hlt (le_of_gainToVolumeTable hi hw (by omega))

/-- A gain that the scalar can have produced gives a volume in range. -/
theorem gainToVolume_within {scalar : ℤ} {gain : ℚ} {volume : Number}
    (h : gainToVolume scalar gain = .ok volume) (hpos : 0 < scalar) (hle : scalar ≤ 1000)
    (hgain : ⌊gain⌋ ≤ volumeToGainTable scalar.toNat) : Number.Within 0 1000 volume := by
  rw [gainToVolume] at h
  split at h
  · cases h
  · rename_i v hv
    have hclamp : clampGain gain ≤ volumeToGainTable scalar.toNat := by
      simp only [clampGain]
      split_ifs <;> omega
    have hvw : v ≤ scalar.toNat := nearestVolume_le hv (by omega) hclamp
    have hscalar : (0 : ℚ) < scalar := by exact_mod_cast hpos
    have hvq : (v : ℚ) ≤ scalar := by
      have hint : (v : ℤ) ≤ scalar := by omega
      exact_mod_cast hint
    obtain rfl := Except.ok.inj h
    rw [Number.ofNat_eq, Number.num_mul_num, Number.num_div_num _ hscalar.ne', Number.floor_num]
    refine Number.within_num ⟨?_, ?_⟩
    · have hnonneg : (0 : ℚ) ≤ v * OfNat.ofNat 1000 / scalar := by positivity
      exact Int.cast_nonneg (Int.floor_nonneg.mpr hnonneg)
    · have hbound : (v : ℚ) * OfNat.ofNat 1000 / scalar ≤ 1000 := by
        rw [div_le_iff₀ hscalar]
        linarith
      exact (Int.floor_le _).trans hbound

namespace Volumes

variable {cfg : VolumeConfig} {s s' : Volumes} {id name : String} {volume : Number}

/-- A volume that is not silent. -/
def Audible (volume : Number) : Prop := ∃ q, volume = .num q ∧ 0 < q ∧ q ≤ 1000

/-- Volumes between 0 and 1000 and a positive master volume. -/
structure VolumesInRange (s : Volumes) : Prop where
  players : ∀ e ∈ s.players, Number.Within 0 1000 e.2.volume
  master : Audible s.masterVolume

/-- Without a global volume, the gain of a player that joins is at most that of
volume 1000 under the current track volume scalar, and the scalar is not zero. -/
def GainsFit (cfg : VolumeConfig) (s : Volumes) : VolumeInput → Prop
  | .players ps =>
    cfg.globalVolume = false → ∀ p ∈ ps, p.id ∉ s.ids →
      0 < s.trackVolumeScalar ∧ ⌊p.gain⌋ ≤ volumeToGainTable s.trackVolumeScalar.toNat
  | _ => True

instance (cfg : VolumeConfig) (s : Volumes) (input : VolumeInput) :
    Decidable (s.GainsFit cfg input) :=
  match input with
  | .players ps =>
    inferInstanceAs (Decidable (cfg.globalVolume = false → ∀ p ∈ ps, p.id ∉ s.ids → _ ∧ _))
  | .setVolume _ | .adjustVolume _ | .adjustLocalVolume _ | .setMasterVolume _ _
  | .setTrackVolumeScalar _ | .setMuted _ | .acquire => .isTrue trivial

structure Ranged (s : Volumes) : Prop where
  range : s.VolumesInRange
  scalar : 0 ≤ s.trackVolumeScalar ∧ s.trackVolumeScalar ≤ 1000

theorem Ranged.congr (h : s.Ranged) (hplayers : s'.players = s.players)
    (hmaster : s'.masterVolume = s.masterVolume)
    (hscalar : s'.trackVolumeScalar = s.trackVolumeScalar) : s'.Ranged where
  range := ⟨hplayers ▸ h.range.players, hmaster ▸ h.range.master⟩
  scalar := hscalar ▸ h.scalar

theorem within_clampVolume (h : volume ≠ .nan) : Number.Within 0 1000 (clampVolume volume) :=
  Number.within_clamp (by norm_num) h

theorem within_of_lookup (h : s.Ranged) {st : PlayerVolume} (hst : s.lookup id = some st) :
    Number.Within 0 1000 st.volume := by
  obtain ⟨before, after, hsplit, -⟩ := lookup_eq_some_iff.mp hst
  exact h.range.players (id, st) (by simp [hsplit])

theorem Ranged.modify (h : s.Ranged) {f : PlayerVolume → PlayerVolume}
    (hf : ∀ st, Number.Within 0 1000 st.volume → Number.Within 0 1000 (f st).volume) :
    (s.modify id f).Ranged := by
  refine ⟨⟨?_, h.range.master⟩, h.scalar⟩
  intro e he
  obtain ⟨e', he', rfl⟩ := List.mem_map.mp he
  have hrange := h.range.players e' he'
  split
  · exact hf e'.2 hrange
  · exact hrange

theorem Ranged.setEntry (h : s.Ranged) (hvolume : Number.Within 0 1000 volume) :
    (s.setEntry id name volume).Ranged := by
  rw [Volumes.setEntry]
  split
  · exact h.modify fun _ _ => hvolume
  · refine ⟨⟨?_, h.range.master⟩, h.scalar⟩
    intro e he
    rcases mem_append.mp he with hold | hnew
    · exact h.range.players e hold
    · exact mem_singleton.mp hnew ▸ hvolume

/-- The maximum of volumes in range, with silence replaced. -/
theorem audible_maxVolume (h : ∀ e ∈ s.players, Number.Within 0 1000 e.2.volume) :
    Audible s.maxVolume := by
  have hmax : Number.Within 0 1000
      (s.players.foldl (fun acc e => if acc < e.2.volume then e.2.volume else acc) 0) := by
    refine foldlRecOn s.players _ (Number.within_num (by norm_num)) ?_
    intro acc hacc e he
    split
    · exact h e he
    · exact hacc
  obtain ⟨q, hq, hlo, hhi⟩ := hmax
  simp only [maxVolume, hq]
  split_ifs with hzero
  · exact ⟨1 / 10, rfl, by norm_num, by norm_num⟩
  · have hne : q ≠ 0 := fun heq => hzero (heq ▸ rfl)
    exact ⟨q, rfl, lt_of_le_of_ne hlo hne.symm, hhi⟩

section

variable (h : s.Ranged)
include h

theorem Ranged.updatePlayerStateVolume (noTriggerUpdate : Bool)
    (hvolume : Number.Within 0 1000 volume) :
    (s.updatePlayerStateVolume cfg id name volume noTriggerUpdate).Ranged := by
  have hentry : (s.setEntry id name volume).Ranged := h.setEntry hvolume
  have hmaster := audible_maxVolume hentry.range.players
  simp only [Volumes.updatePlayerStateVolume]
  split_ifs <;>
    first
    | exact hentry.congr rfl rfl rfl
    | exact ⟨⟨hentry.range.players, hmaster⟩, hentry.scalar⟩

theorem Ranged.changeVolume {noTriggerUpdate : Bool} (hvolume : Number.Within 0 1000 volume)
    (hrun : s.changeVolume cfg id volume noTriggerUpdate = .ok s') : s'.Ranged := by
  rw [Volumes.changeVolume] at hrun
  split at hrun
  · cases hrun
  · obtain rfl := Except.ok.inj hrun
    exact (h.updatePlayerStateVolume noTriggerUpdate hvolume).congr rfl rfl rfl

theorem Ranged.setPlayerVolume {noTriggerUpdate : Bool} (hvolume : volume ≠ .nan)
    (hrun : s.setPlayerVolume cfg id volume noTriggerUpdate = .ok s') : s'.Ranged :=
  h.changeVolume (within_clampVolume hvolume) hrun

theorem Ranged.scaleVolume {ratio : ℚ} (hrun : s.scaleVolume cfg (.num ratio) id = .ok s') :
    s'.Ranged := by
  rw [Volumes.scaleVolume] at hrun
  split at hrun
  · exact Except.ok.inj hrun ▸ h
  · rename_i st hst
    have hraised : Number.Within 0 1000
        (if st.volume < .num (1 / 10) then .num (1 / 10) else st.volume) := by
      split
      · exact Number.within_num (by norm_num)
      · exact within_of_lookup h hst
    obtain ⟨q, hq, hbounds⟩ := hraised
    simp only [hq] at hrun
    exact (h.modify fun _ _ => Number.within_num hbounds).setPlayerVolume (Number.num_ne_nan _) hrun

/-- A number is given, and the ratio to the master volume is one. -/
theorem Ranged.setAllVolumes {q : ℚ} (hrun : s.setAllVolumes cfg (.num q) = .ok s') :
    s'.Ranged := by
  simp only [Volumes.setAllVolumes] at hrun
  split at hrun
  · exact foldlM_invariant h hrun fun id _ s s' hs hstep =>
      hs.setPlayerVolume (Number.num_ne_nan _) hstep
  · obtain ⟨m, hm, hpos, -⟩ := h.range.master
    obtain ⟨ratio, hratio⟩ : ∃ ratio,
        (if Number.num q = 0 then .num (1 / 10) else .num q) / s.masterVolume =
          Number.num ratio := by
      rw [hm]
      split
      · exact ⟨_, Number.num_div_num _ hpos.ne'⟩
      · exact ⟨_, Number.num_div_num _ hpos.ne'⟩
    rw [hratio] at hrun
    exact foldlM_invariant h hrun fun id _ s s' hs hstep => hs.scaleVolume hstep

theorem Ranged.setMasterVolume {q : ℚ} {clientId : Option String}
    (hrun : s.setMasterVolume cfg (.num q) clientId = .ok s') : s'.Ranged := by
  obtain ⟨middle, hmiddle, rfl⟩ := map_eq_ok.mp hrun
  exact (h.setAllVolumes hmiddle).congr rfl rfl rfl

theorem Ranged.setMasterVolume_audible (hvolume : Audible volume) {clientId : Option String}
    (hrun : s.setMasterVolume cfg volume clientId = .ok s') : s'.Ranged := by
  obtain ⟨q, rfl, -⟩ := hvolume
  exact h.setMasterVolume hrun

theorem Ranged.adjustPlayerVolume {delta : ℚ}
    (hrun : s.adjustPlayerVolume cfg id (.num delta) = .ok s') : s'.Ranged := by
  rw [Volumes.adjustPlayerVolume] at hrun
  split at hrun
  · exact Except.ok.inj hrun ▸ h
  · rename_i st hst
    obtain ⟨v, hv, -⟩ := within_of_lookup h hst
    obtain ⟨q, hq, hbounds⟩ : Number.Within 0 1000 (clampVolume (st.volume + .num delta)) :=
      within_clampVolume (by rw [hv]; exact Number.num_ne_nan _)
    simp only [hq] at hrun
    split at hrun
    · exact h.setMasterVolume hrun
    · exact h.changeVolume (Number.within_num hbounds) hrun

theorem Ranged.setPlayerIsMuted {isMuted : Bool}
    (hrun : s.setPlayerIsMuted cfg id isMuted = .ok s') : s'.Ranged := by
  rw [Volumes.setPlayerIsMuted] at hrun
  split at hrun
  · exact Except.ok.inj hrun ▸ h
  · rename_i st hst
    obtain ⟨v, hv, -⟩ := within_of_lookup h hst
    rw [hv] at hrun
    have hmuted : (s.modify id fun st => { st with isMuted := isMuted }).Ranged :=
      h.modify fun _ hrange => hrange
    exact hmuted.setPlayerVolume (Number.num_ne_nan v) hrun

theorem Ranged.setTrackVolumeScalar {scalar : ℤ} (hscalar : 0 ≤ scalar ∧ scalar ≤ 1000)
    (hrun : s.setTrackVolumeScalar cfg scalar = .ok s') : s'.Ranged := by
  have hset : { s with trackVolumeScalar := scalar }.Ranged :=
    ⟨⟨h.range.players, h.range.master⟩, hscalar⟩
  exact hset.setMasterVolume_audible h.range.master hrun

theorem Ranged.answer {check : Option String} {action : VolumeM}
    (haction : check = none → ∀ s', action = .ok s' → s'.Ranged)
    (hrun : s.answer check action = .ok s') : s'.Ranged := by
  cases hcheck : check with
  | some message =>
    rw [hcheck] at hrun
    exact Except.ok.inj hrun ▸ h.congr rfl rfl rfl
  | none =>
    rw [hcheck] at hrun
    obtain ⟨middle, hmiddle, rfl⟩ := map_eq_ok.mp hrun
    exact (haction hcheck middle hmiddle).congr rfl rfl rfl

end

/-- Where the first loop of an update is; `old` is what was there before. -/
structure Joining (cfg : VolumeConfig) (old s : Volumes) : Prop where
  ranged : s.Ranged
  scalar : cfg.globalVolume = false → s.trackVolumeScalar = old.trackVolumeScalar
  grows : cfg.globalVolume = false → ∀ id ∈ old.ids, id ∈ s.ids

theorem scalar_updatePlayerStateVolume (noTriggerUpdate : Bool) :
    (s.updatePlayerStateVolume cfg id name volume noTriggerUpdate).trackVolumeScalar =
      s.trackVolumeScalar := by
  have hentry : (s.setEntry id name volume).trackVolumeScalar = s.trackVolumeScalar := by
    rw [Volumes.setEntry]
    split <;> rfl
  simp only [Volumes.updatePlayerStateVolume]
  split_ifs <;> exact hentry

theorem Joining.addWithVolume {old : Volumes} {p : VolumePlayer} (h : Joining cfg old s)
    (hvolume : Number.Within 0 1000 volume)
    (hrun : s.addWithVolume cfg p volume = .ok s') : Joining cfg old s' := by
  have hupdate : ((s.updatePlayerStateVolume cfg p.id p.name volume true).triggerUpdate
      (.deviceAdded p.id)).Ranged :=
    (h.ranged.updatePlayerStateVolume true hvolume).congr rfl rfl rfl
  simp only [Volumes.addWithVolume] at hrun
  split at hrun
  · rename_i hglobal
    refine ⟨hupdate.setMasterVolume_audible hupdate.range.master hrun, ?_, ?_⟩
    · exact fun hlocal => absurd hglobal (by simp [hlocal])
    · exact fun hlocal => absurd hglobal (by simp [hlocal])
  · obtain rfl := Except.ok.inj hrun
    refine ⟨hupdate, fun hlocal => ?_, fun hlocal id hid => ?_⟩
    · exact (scalar_updatePlayerStateVolume true).trans (h.scalar hlocal)
    · have hentry : id ∈ (s.setEntry p.id p.name volume).ids :=
        mem_ids_setEntry.mpr (.inl (h.grows hlocal id hid))
      exact (keeps_updatePlayerStateVolume true).order ▸ hentry

theorem Joining.addPlayer {ps : List VolumePlayer} {old : Volumes} {p : VolumePlayer}
    (h : Joining cfg old s) (hp : p ∈ ps) (hok : old.GainsFit cfg (.players ps))
    (hrun : s.addPlayer cfg p = .ok s') : Joining cfg old s' := by
  rw [Volumes.addPlayer] at hrun
  split at hrun
  · exact Except.ok.inj hrun ▸ h
  · rename_i hnone
    have hfresh : p.id ∉ s.ids := by simp [mem_ids_iff, hnone]
    obtain ⟨volume, hvolume, hadd⟩ := bind_eq_ok.mp hrun
    refine h.addWithVolume ?_ hadd
    rw [firstVolume] at hvolume
    split at hvolume
    · obtain ⟨m, hm, hpos, hle⟩ := h.ranged.range.master
      obtain rfl := Except.ok.inj hvolume
      exact ⟨m, hm, hpos.le, hle⟩
    · rename_i hglobal
      have hlocal : cfg.globalVolume = false := by simpa using hglobal
      obtain ⟨hpos, hgain⟩ := hok hlocal p hp fun hin => hfresh (h.grows hlocal _ hin)
      rw [h.scalar hlocal] at hvolume
      have hle := h.ranged.scalar.2
      rw [h.scalar hlocal] at hle
      exact gainToVolume_within hvolume hpos hle hgain

theorem Ranged.updatePlayers (h : s.Ranged) {ps : List VolumePlayer}
    (hok : s.GainsFit cfg (.players ps)) (hrun : s.updatePlayers cfg ps = .ok s') : s'.Ranged := by
  obtain ⟨middle, hmiddle, rfl⟩ := map_eq_ok.mp hrun
  have hstart : Joining cfg s { s with volumePlayers := ps } :=
    ⟨h.congr rfl rfl rfl, fun _ => rfl, fun _ _ hid => hid⟩
  have hadded : Joining cfg s middle := foldlM_invariant hstart hmiddle
    fun p hp s' s'' hs' hstep => hs'.addPlayer hp hok hstep
  have hremoved : (middle.removePlayers cfg).Ranged :=
    ⟨⟨fun e he => hadded.ranged.range.players e (mem_of_mem_filter he),
      hadded.ranged.range.master⟩, hadded.ranged.scalar⟩
  split
  · exact hremoved.congr rfl rfl rfl
  · exact hremoved

theorem Ranged.handle (h : s.Ranged) {input : VolumeInput} (hok : s.GainsFit cfg input)
    (hrun : s.handle cfg input = .ok s') : s'.Ranged := by
  cases input with
  | players ps => exact h.updatePlayers hok hrun
  | setVolume players =>
    refine h.answer (fun _ s' haction => ?_) hrun
    split at haction
    · split at haction
      · exact Except.ok.inj haction ▸ h
      · exact h.setMasterVolume haction
    · exact foldlM_invariant h haction fun e _ s s' hs hstep =>
        hs.setPlayerVolume (Number.num_ne_nan _) hstep
  | adjustVolume players =>
    exact h.answer (fun _ s' haction => foldlM_invariant h haction fun e _ s s' hs hstep =>
      hs.adjustPlayerVolume hstep) hrun
  | adjustLocalVolume volume =>
    refine h.answer (fun _ s' haction => ?_) hrun
    split at haction
    · exact Except.ok.inj haction ▸ h
    · exact h.adjustPlayerVolume haction
  | setMasterVolume volume clientId =>
    exact h.answer (fun _ s' haction => h.setMasterVolume haction) hrun
  | setTrackVolumeScalar volume =>
    refine h.answer (fun hcheck s' haction => ?_) hrun
    have hrange : inRange 0 1000 volume = true := by simpa using hcheck
    have hbounds : (0 : ℚ) ≤ volume ∧ (volume : ℚ) ≤ 1000 := by simpa [inRange] using hrange
    exact h.setTrackVolumeScalar (by exact_mod_cast hbounds) haction
  | setMuted players =>
    exact h.answer (fun _ s' haction => foldlM_invariant h haction fun e _ s s' hs hstep =>
      hs.setPlayerIsMuted hstep) hrun
  | acquire => exact h.setTrackVolumeScalar (by norm_num) hrun

end Volumes

/-- All volumes are in range in every run in which the gains of players that join
fit the track volume scalar, if the default volume is in range. -/
theorem volumesInRange_of_gainsFit (cfg : VolumeConfig)
    (hdefault : 0 < cfg.defaultVolume ∧ cfg.defaultVolume ≤ 1000) (s : Volumes)
    (h : (volumes cfg).ReachableUnder (Volumes.GainsFit cfg) s) : s.VolumesInRange := by
  have hinit : (Volumes.init cfg).Ranged :=
    ⟨⟨nofun, cfg.defaultVolume, rfl, hdefault⟩,
      by norm_num [Volumes.init]⟩
  refine (h.invariant hinit ?_).range
  intro s input s' hs hok hstep
  simp only [volumes, Volumes.step] at hstep
  split at hstep
  · cases hstep
  · split at hstep
    · rename_i hrun
      exact Option.some.inj hstep ▸ hs.handle hok hrun
    · exact Option.some.inj hstep ▸ hs.congr rfl rfl rfl

/-- A player with the highest gain joins. -/
def joinLoud : VolumeInput := .players [⟨"a", "A", 65536⟩]

theorem volumesInRange_loud :
    ∃ s, (volumes (defaultConfig false)).runFrom (.init (defaultConfig false))
        [joinLoud, .setMasterVolume 0 none] = some s ∧ s.VolumesInRange := by
  obtain ⟨s, hrun, hreach, -⟩ :=
    (volumes (defaultConfig false)).exists_reachableUnder (Volumes.GainsFit (defaultConfig false))
      [joinLoud, .setMasterVolume 0 none] (fun _ => True) (by decide +kernel) (by decide +kernel)
  exact ⟨s, hrun, volumesInRange_of_gainsFit (defaultConfig false) (by decide) s hreach⟩

/-- The same player joins when the track volume is one half. -/
theorem volume_above_range :
    ∃ s, (volumes (defaultConfig false)).Reachable s ∧ s.masterVolume = .num 2000 ∧
      ¬s.VolumesInRange := by
  obtain ⟨s, hreach, hmaster⟩ := (volumes (defaultConfig false)).exists_reachable
    [.setTrackVolumeScalar 500, joinLoud] (fun s => s.masterVolume = .num 2000)
    (by decide +kernel)
  refine ⟨s, hreach, hmaster, fun h => ?_⟩
  obtain ⟨q, hq, -, hle⟩ := h.master
  rw [hmaster, Number.num.injEq] at hq
  norm_num [← hq] at hle

end BeepMusic.Distributor
