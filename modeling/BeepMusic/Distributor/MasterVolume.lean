import BeepMusic.Distributor.VolumeTables

/-!
What `set_master_volume` does to the volumes when there is no global volume. Every
volume is multiplied by the ratio of the new master volume to the old one, so the
loudest player gets the new volume exactly if the old master volume was its volume.
The old one is kept up with every change of a volume, but not when a player leaves,
and a volume below `0.1` counts as `0.1` in the loop only.
-/

namespace BeepMusic.Distributor

open Lib List Option

namespace Volumes

variable {cfg : VolumeConfig} {s s' : Volumes} {id name : String} {volume : Number}

/-! ### The ids are different -/

/-- No player has two entries in `state.players`. -/
def Distinct (s : Volumes) : Prop := s.ids.Nodup

section

variable (h : s.Distinct)
include h

theorem Distinct.keeps (hs : s.Keeps s') : s'.Distinct := by
  rw [Distinct, hs.order]
  exact h

theorem Distinct.setEntry : (s.setEntry id name volume).Distinct := by
  rw [Volumes.setEntry]
  split
  · exact h.keeps (keeps_modify _)
  · rename_i hnone
    have hfresh : id ∉ s.ids := by simp [mem_ids_iff, hnone]
    rw [Distinct, ids, map_append]
    refine List.Nodup.append h (nodup_singleton id) ?_
    exact disjoint_singleton.mpr hfresh

variable (hglobal : cfg.globalVolume = false)
include hglobal

theorem Distinct.addPlayer {p : VolumePlayer} (hrun : s.addPlayer cfg p = .ok s') :
    s'.Distinct := by
  rw [Volumes.addPlayer] at hrun
  split at hrun
  · exact Except.ok.inj hrun ▸ h
  · obtain ⟨volume, -, hadd⟩ := bind_eq_ok.mp hrun
    simp only [addWithVolume, hglobal, Bool.false_eq_true, if_false] at hadd
    have hentry : (s.setEntry p.id p.name volume).Distinct := h.setEntry
    exact Except.ok.inj hadd ▸ hentry.keeps
      ((keeps_updatePlayerStateVolume true).trans (keeps_of_eq rfl rfl rfl))

theorem Distinct.updatePlayers {ps : List VolumePlayer} (hrun : s.updatePlayers cfg ps = .ok s') :
    s'.Distinct := by
  obtain ⟨middle, hmiddle, rfl⟩ := map_eq_ok.mp hrun
  have hstart : { s with volumePlayers := ps }.Distinct := h
  have hadded : middle.Distinct :=
    foldlM_invariant hstart hmiddle fun p _ s s' hs hstep => hs.addPlayer hglobal hstep
  have hremoved : (middle.removePlayers cfg).Distinct :=
    List.Nodup.sublist (filter_sublist.map Prod.fst) hadded
  split
  · exact hremoved
  · exact hremoved

end

/-- Between events, without a global volume. -/
structure Settled (s : Volumes) : Prop where
  failure : s.failure = none
  sameIds : s.SameIds
  distinct : s.Distinct

theorem settled_of_reachable (hglobal : cfg.globalVolume = false)
    (h : (volumes cfg).Reachable s) : s.Settled := by
  refine h.invariant ⟨rfl, fun _ => .rfl, nodup_nil⟩ ?_
  rintro s input s' ⟨hfailure, hsame, hdistinct⟩ hstep
  have hok : s.AddsOnly cfg input := by
    cases input with
    | players ps => exact fun h => absurd h (by simp [hglobal])
    | _ => trivial
  obtain ⟨hfailure', hsame'⟩ := step_sameIds hfailure hsame hok hstep
  refine ⟨hfailure', hsame', ?_⟩
  simp only [volumes, step, hfailure] at hstep
  by_cases hinput : ∃ ps, input = .players ps
  · obtain ⟨ps, rfl⟩ := hinput
    split at hstep
    · rename_i hrun
      exact Option.some.inj hstep ▸ hdistinct.updatePlayers hglobal hrun
    · exact Option.some.inj hstep ▸ hdistinct
  · obtain ⟨s'', hrun, hkeeps⟩ : ∃ s'', s.handle cfg input = .ok s'' ∧ s.Keeps s'' :=
      handle_ok hsame fun ps heq => hinput ⟨ps, heq⟩
    rw [hrun] at hstep
    exact Option.some.inj hstep ▸ hdistinct.keeps hkeeps

/-! ### One volume -/

/-- The volume of a player in `state.players`. -/
def volumeOf (s : Volumes) (id : String) : Option Number := (s.lookup id).map PlayerVolume.volume

theorem lookup_modify (f : PlayerVolume → PlayerVolume) (i : String) :
    (s.modify id f).lookup i = if i = id then (s.lookup i).map f else s.lookup i := by
  simp only [lookup, modify]
  induction s.players with
  | nil => simp
  | cons e es ih =>
    obtain ⟨key, st⟩ := e
    by_cases hkey : key = id
    · subst hkey
      by_cases hi : i = key
      · simp [hi]
      · have hne : (i == key) = false := by simpa using hi
        simpa [lookup_cons, hi, hne] using ih
    · by_cases hi : i = key
      · simp [hi, hkey]
      · have hne : (i == key) = false := by simpa using hi
        simpa [lookup_cons, hkey, hne] using ih

theorem volumeOf_modify (f : PlayerVolume → PlayerVolume) {i : String} (hi : i ≠ id) :
    (s.modify id f).volumeOf i = s.volumeOf i := by
  rw [volumeOf, lookup_modify, if_neg hi, volumeOf]

theorem volumeOf_setEntry (i : String) :
    (s.setEntry id name volume).volumeOf i = if i = id then some volume else s.volumeOf i := by
  rw [setEntry]
  split
  · rename_i st hst
    by_cases hi : i = id
    · subst hi
      simp [volumeOf, lookup_modify, hst]
    · rw [volumeOf_modify _ hi, if_neg hi]
  · rename_i hnone
    rw [lookup] at hnone
    by_cases hi : i = id
    · subst hi
      simp [volumeOf, lookup, lookup_append, hnone]
    · have hne : (i == id) = false := by simpa using hi
      simp [volumeOf, lookup, lookup_append, lookup_cons, hi, hne]

theorem volumeOf_changeVolume {noTriggerUpdate : Bool}
    (hrun : s.changeVolume cfg id volume noTriggerUpdate = .ok s') (i : String) :
    s'.volumeOf i = if i = id then some volume else s.volumeOf i := by
  rw [changeVolume] at hrun
  split at hrun
  · cases hrun
  · rename_i p hp
    obtain rfl := Except.ok.inj hrun
    have hentry : (s.setEntry id p.name volume).volumeOf i =
        if i = id then some volume else s.volumeOf i := volumeOf_setEntry i
    rw [← hentry]
    simp only [volumeOf, lookup, callSetVolume, updatePlayerStateVolume]
    split_ifs <;> rfl

/-- What the loop of `set_master_volume` takes a volume to be. -/
def raised (volume : Number) : Number := if volume < .num (1 / 10) then .num (1 / 10) else volume

/-- What it makes of a volume. -/
def scaled (volumeRatio volume : Number) : Number := clampVolume (volumeRatio * raised volume)

theorem volumeOf_scaleVolume {ratio : Number} (hrun : s.scaleVolume cfg ratio id = .ok s') :
    s'.volumeOf id = (s.volumeOf id).map (scaled ratio) ∧
      ∀ i, i ≠ id → s'.volumeOf i = s.volumeOf i := by
  rw [scaleVolume] at hrun
  split at hrun
  · rename_i hnone
    obtain rfl := Except.ok.inj hrun
    exact ⟨by simp [volumeOf, hnone], fun _ _ => rfl⟩
  · rename_i st hst
    refine ⟨?_, fun i hi => ?_⟩
    · rw [volumeOf_changeVolume hrun, if_pos rfl]
      simp [volumeOf, hst, scaled, raised]
    · rw [volumeOf_changeVolume hrun, if_neg hi, volumeOf_modify _ hi]

variable {v q : ℚ} {a : Number}

/-- Every volume is scaled once. -/
theorem volumeOf_setMasterVolume (hglobal : cfg.globalVolume = false) (hs : s.Distinct)
    (hv : 0 < v) {clientId : Option String}
    (hrun : s.setMasterVolume cfg (.num v) clientId = .ok s') (i : String) :
    s'.volumeOf i = (s.volumeOf i).map (scaled (.num v / s.masterVolume)) := by
  obtain ⟨middle, hmiddle, rfl⟩ := map_eq_ok.mp hrun
  have hne : ¬Number.num v = 0 := fun h => hv.ne' (Number.num.inj h)
  rw [setAllVolumes, hglobal, if_neg Bool.false_ne_true, if_neg hne] at hmiddle
  have hmem : i ∈ cfg.pairs.order s.ids ↔ (s.volumeOf i).isSome := by
    rw [cfg.pairs.mem_order, mem_ids_iff, ← isSome_iff_exists]
    simp [volumeOf]
  have hread : middle.volumeOf i = if i ∈ cfg.pairs.order s.ids
      then (s.volumeOf i).map (scaled (.num v / s.masterVolume)) else s.volumeOf i :=
    foldlM_pointwise volumeOf _ (cfg.pairs.nodup_order.mpr hs) hmiddle
      (fun _ _ _ hstep => volumeOf_scaleVolume hstep) i
  have hframe : ({ middle with masterVolumeClientId := clientId }.triggerUpdate
      .volumeChanged).volumeOf i = middle.volumeOf i := rfl
  rw [hframe, hread]
  split
  · rfl
  · rename_i hnot
    rw [hmem, not_isSome_iff_eq_none] at hnot
    rw [hnot]
    rfl

/-! ### The loudest player -/

/-- The largest volume is `v`. -/
structure LoudestIs (s : Volumes) (v : ℚ) : Prop where
  bounded : ∀ id a, s.volumeOf id = some a → ∃ q, a = .num q ∧ q ≤ v
  attained : ∃ id, s.volumeOf id = some (.num v)

/-- Any two volumes of at least `0.1` keep their ratio. -/
def KeepsRatios (s s' : Volumes) : Prop :=
  ∀ (id id' : String) (a b : ℚ), s.volumeOf id = some (.num a) → s.volumeOf id' = some (.num b) →
    1 / 10 ≤ a → 1 / 10 ≤ b →
    ∃ c d : ℚ, s'.volumeOf id = some (.num c) ∧ s'.volumeOf id' = some (.num d) ∧ c / d = a / b

/-- The master volume is the largest of the volumes as the loop takes them. -/
def MasterIsLoudest (s : Volumes) : Prop :=
  ∃ m, s.masterVolume = .num m ∧
    (∀ id a, s.volumeOf id = some a → ∃ q, raised a = .num q ∧ q ≤ m) ∧
    ∃ id a, s.volumeOf id = some a ∧ raised a = .num m

theorem raised_cases (a : Number) :
    (∃ q, raised a = .num q ∧ 1 / 10 ≤ q) ∨ raised a = .inf false ∨ raised a = .nan := by
  rw [raised]
  split_ifs with hlt
  · exact .inl ⟨1 / 10, rfl, le_rfl⟩
  · cases a with
    | num q => exact .inl ⟨q, rfl, not_lt.mp fun h => hlt (Number.num_lt_num.mpr h)⟩
    | inf n =>
      cases n with
      | false => exact .inr (.inl rfl)
      | true => exact absurd rfl hlt
    | nan => exact .inr (.inr rfl)

theorem le_of_raised (h : raised a = .num q) : 1 / 10 ≤ q := by
  rcases raised_cases a with ⟨r, hr, hle⟩ | hinf | hnan
  · rw [hr, Number.num.injEq] at h
    exact h ▸ hle
  · exact absurd (hinf.symm.trans h) Number.noConfusion
  · exact absurd (hnan.symm.trans h) Number.noConfusion

theorem raised_num (h : 1 / 10 ≤ q) : raised (.num q) = .num q :=
  if_neg fun hlt => (Number.num_lt_num.mp hlt).not_ge h

/-- A volume up to the master volume is not cut off. -/
theorem scaled_of_le {m : ℚ} (hv : 0 < v ∧ v ≤ 1000) (ha : raised a = .num q) (hle : q ≤ m) :
    scaled (.num v / .num m) a = .num (v / m * q) := by
  have hq : 0 < q := lt_of_lt_of_le (by norm_num) (le_of_raised ha)
  have hm : 0 < m := hq.trans_le hle
  rw [scaled, ha, Number.num_div_num v hm.ne', Number.num_mul_num]
  refine Number.clamp_num ⟨mul_nonneg (div_nonneg hv.1.le hm.le) hq.le, ?_⟩
  calc
    v / m * q ≤ v / m * m := mul_le_mul_of_nonneg_left hle (div_nonneg hv.1.le hm.le)
    _ = v := div_mul_cancel₀ v hm.ne'
    _ ≤ 1000 := hv.2

/-- The ratio that takes a volume to `v` is that of `v` to this volume. -/
theorem master_of_scaled {master : Number} (hv : 0 < v) (hv' : v < 1000)
    (h : scaled (.num v / master) a = .num v) : ∃ m, master = .num m ∧ raised a = .num m := by
  rcases Number.clamp_eq_num h hv' with hprod | ⟨-, hzero⟩
  · obtain ⟨x, q, hx, hq, hxq⟩ := Number.mul_eq_num hprod
    have hne : x ≠ 0 := by
      rintro rfl
      rw [zero_mul] at hxq
      exact hv.ne hxq
    obtain ⟨m, hm, hm', rfl⟩ := Number.num_div_eq_num hx hne
    refine ⟨m, hm, ?_⟩
    rw [hq, ← mul_left_cancel₀ hne (hxq.trans (div_mul_cancel₀ v hm').symm)]
  · exact absurd hzero hv.ne'

/-- A volume that is taken at most to `v` is at most the master volume. -/
theorem raised_le_of_scaled {m : ℚ} (hv : 0 < v) (hv' : v < 1000) (hm : 0 < m)
    (h : scaled (.num v / .num m) a = .num q) (hle : q ≤ v) : ∃ r, raised a = .num r ∧ r ≤ m := by
  have hratio : 0 < v / m := div_pos hv hm
  rw [scaled, Number.num_div_num v hm.ne'] at h
  rcases raised_cases a with ⟨r, hr, hpos⟩ | hinf | hnan
  · refine ⟨r, hr, ?_⟩
    rw [hr, Number.num_mul_num] at h
    have hprod : v / m * r ≤ v := by
      rcases Number.clamp_eq_num h (hle.trans_lt hv') with heq | ⟨hneg, -⟩
      · exact Number.num.inj heq ▸ hle
      · exact (Number.num_lt_num.mp hneg).le.trans hv.le
    exact le_of_mul_le_mul_left (hprod.trans_eq (div_mul_cancel₀ v hm.ne').symm) hratio
  · -- an infinite volume is cut off at 1000
    have hprod : Number.num (v / m) * Number.inf false = Number.inf false := by
      change (if v / m = 0 then Number.nan else _) = _
      rw [if_neg hratio.ne', decide_eq_false hratio.not_gt]
      rfl
    rw [hinf, hprod] at h
    exact absurd (Number.num.inj h) (hle.trans_lt hv').ne'
  · rw [hnan] at h
    exact absurd h Number.noConfusion

end Volumes

theorem masterIsLoudest_of_sets {cfg : VolumeConfig} {s s' : Volumes}
    (hglobal : cfg.globalVolume = false) (hs : s.Distinct) {v : ℚ} (hv : 0 < v) (hv' : v < 1000)
    {clientId : Option String} (hrun : s.setMasterVolume cfg (.num v) clientId = .ok s')
    (hloud : s'.LoudestIs v) : s.MasterIsLoudest := by
  have hread := Volumes.volumeOf_setMasterVolume hglobal hs hv hrun
  obtain ⟨id, hid⟩ := hloud.attained
  rw [hread] at hid
  obtain ⟨a, ha, hscaled⟩ := map_eq_some_iff.mp hid
  obtain ⟨m, hm, hraised⟩ := Volumes.master_of_scaled hv hv' hscaled
  have hpos : 0 < m := lt_of_lt_of_le (by norm_num) (Volumes.le_of_raised hraised)
  refine ⟨m, hm, fun id b hb => ?_, id, a, ha, hraised⟩
  have hnew := hread id
  rw [hb, map_some] at hnew
  obtain ⟨q, hq, hle⟩ := hloud.bounded id _ hnew
  rw [hm] at hq
  exact Volumes.raised_le_of_scaled hv hv' hpos hq hle

theorem sets_of_masterIsLoudest {cfg : VolumeConfig} {s s' : Volumes}
    (hglobal : cfg.globalVolume = false) (hs : s.Distinct) (hmaster : s.MasterIsLoudest)
    {v : ℚ} (hv : 0 < v ∧ v ≤ 1000) {clientId : Option String}
    (hrun : s.setMasterVolume cfg (.num v) clientId = .ok s') :
    s'.LoudestIs v ∧ s.KeepsRatios s' := by
  obtain ⟨m, hm, hall, id, a, ha, hraised⟩ := hmaster
  have hread := Volumes.volumeOf_setMasterVolume hglobal hs hv.1 hrun
  rw [hm] at hread
  have hpos : 0 < m := lt_of_lt_of_le (by norm_num) (Volumes.le_of_raised hraised)
  have hratio : 0 < v / m := div_pos hv.1 hpos
  refine ⟨⟨fun i b hb => ?_, id, ?_⟩, fun i i' x y hx hy hx' hy' => ?_⟩
  · rw [hread] at hb
    obtain ⟨c, hc, rfl⟩ := map_eq_some_iff.mp hb
    obtain ⟨q, hq, hle⟩ := hall i c hc
    refine ⟨v / m * q, Volumes.scaled_of_le hv hq hle, ?_⟩
    calc
      v / m * q ≤ v / m * m := mul_le_mul_of_nonneg_left hle hratio.le
      _ = v := div_mul_cancel₀ v hpos.ne'
  · rw [hread, ha, map_some, Volumes.scaled_of_le hv hraised le_rfl,
      div_mul_cancel₀ v hpos.ne']
  · have hscale {i : String} {x : ℚ} (hx : s.volumeOf i = some (.num x)) (hx' : 1 / 10 ≤ x) :
        s'.volumeOf i = some (.num (v / m * x)) := by
      obtain ⟨q, hq, hle⟩ := hall i _ hx
      have hself := Volumes.raised_num hx'
      rw [hself, Number.num.injEq] at hq
      rw [hread, hx, map_some, Volumes.scaled_of_le hv hself (hq ▸ hle)]
    exact ⟨_, _, hscale hx hx', hscale hy hy', mul_div_mul_left x y hratio.ne'⟩

/-- Setting the master volume makes it the volume of the loudest player and keeps
the ratios of volumes of at least `0.1`, in a reachable state without a global
volume, if and only if the old master volume is the largest volume, where one below
`0.1` counts as `0.1`. -/
theorem masterVolume_sets_loudest_iff (cfg : VolumeConfig) (hglobal : cfg.globalVolume = false)
    (s : Volumes) (h : (volumes cfg).Reachable s) :
    (∀ v : ℚ, 0 < v → v ≤ 1000 → ∀ clientId, ∃ s',
        s.setMasterVolume cfg (.num v) clientId = .ok s' ∧ s'.LoudestIs v ∧ s.KeepsRatios s') ↔
      s.MasterIsLoudest := by
  have hs := Volumes.settled_of_reachable hglobal h
  constructor
  · intro hsets
    obtain ⟨s', hrun, hloud, -⟩ := hsets 500 (by norm_num) (by norm_num) none
    exact masterIsLoudest_of_sets hglobal hs.distinct (by norm_num) (by norm_num) hrun hloud
  · intro hmaster v hpos hle clientId
    obtain ⟨s', hrun, -⟩ : ∃ s', s.setMasterVolume cfg (.num v) clientId = .ok s' ∧ s.Keeps s' :=
      Volumes.setMasterVolume_ok clientId fun id => (hs.sameIds id).mp
    exact ⟨s', hrun, sets_of_masterIsLoudest hglobal hs.distinct hmaster ⟨hpos, hle⟩ hrun⟩

/-- Two players get the volumes 1000 and 500. -/
def loudAndQuiet : List VolumeInput :=
  [.players [⟨"a", "A", 65536⟩, ⟨"b", "B", 65536⟩], .setVolume [("a", 1000), ("b", 500)]]

theorem masterVolume_sets_loudest_two :
    ∃ s, (volumes (defaultConfig false)).Reachable s ∧
      s.volumeOf "a" = some 1000 ∧ s.volumeOf "b" = some 500 ∧
      ((∀ v : ℚ, 0 < v → v ≤ 1000 → ∀ clientId, ∃ s',
          s.setMasterVolume (defaultConfig false) (.num v) clientId = .ok s' ∧ s'.LoudestIs v ∧
            s.KeepsRatios s') ↔ s.MasterIsLoudest) := by
  obtain ⟨s, hreach, hvolumes⟩ := (volumes (defaultConfig false)).exists_reachable loudAndQuiet
    (fun s => s.volumeOf "a" = some 1000 ∧ s.volumeOf "b" = some 500) (by decide +kernel)
  exact ⟨s, hreach, hvolumes.1, hvolumes.2,
    masterVolume_sets_loudest_iff (defaultConfig false) rfl s hreach⟩

/-- The louder one leaves, and the master volume is still 1000: setting it to 500
takes the other one from 500 to 250. -/
theorem masterVolume_of_gone_player :
    ∃ s, (volumes (defaultConfig false)).Reachable s ∧ s.ids = ["b"] ∧
      ∃ s', s.setMasterVolume (defaultConfig false) (.num 500) none = .ok s' ∧
        s'.volumeOf "b" = some 250 ∧ ¬s'.LoudestIs 500 := by
  obtain ⟨s, hreach, hids, hset⟩ := (volumes (defaultConfig false)).exists_reachable
    (loudAndQuiet ++ [.players [⟨"b", "B", 65536⟩]])
    (fun s => s.ids = ["b"] ∧
      (s.setMasterVolume (defaultConfig false) (.num 500) none).toOption.any fun s' : Volumes =>
        decide (s'.ids = ["b"] ∧ s'.volumeOf "b" = some 250)) (by decide +kernel)
  cases hrun : s.setMasterVolume (defaultConfig false) (.num 500) none with
  | error e =>
    rw [hrun] at hset
    exact absurd hset (by simp [Except.toOption])
  | ok s' =>
    rw [hrun] at hset
    obtain ⟨hids', hvolume⟩ := of_decide_eq_true hset
    refine ⟨s, hreach, hids, s', hrun, hvolume, fun hloud => ?_⟩
    obtain ⟨id, hid⟩ := hloud.attained
    have hb : id = "b" := by
      have hmem : id ∈ s'.ids := by
        rw [Volumes.mem_ids_iff, ← isSome_iff_exists]
        simpa [Volumes.volumeOf] using congrArg isSome hid
      simpa [hids'] using hmem
    rw [hb, hvolume] at hid
    exact absurd hid (by decide)

end BeepMusic.Distributor
