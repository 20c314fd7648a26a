import BeepMusic.Grouper.Delta
import BeepMusic.Lib.Deal

/-!
Which device runs which integration. `assign_groups` deals the integrations out to the
devices in turn, the device with the strongest signal first, whatever they ran before.
-/

namespace BeepMusic.Grouper

open Lib List Option

variable {ν : Type}

/-! ### Dealing -/

variable {k : ℕ} {names : List String}

/-- The device at position `k` gets every entry whose position leaves the remainder `k`,
behind what it has. -/
theorem foldl_dealIntegration {devices : List (DeviceKey ν)}
    (hnames : (devices.map DeviceKey.name).Nodup) {key : DeviceKey ν}
    (hkey : devices[k]? = some key) (entries : List (String × ℕ)) {c : Records ν}
    {is : List String} (his : (c key.name).integrations = some is) :
    (entries.foldl (dealIntegration devices) c key.name).integrations =
      some (is ++ (entries.filter fun e => e.2 % devices.length = k).map Prod.fst) := by
  have hk : k < devices.length := (List.getElem?_eq_some_iff.mp hkey).1
  induction entries generalizing c is with
  | nil => rw [foldl_nil, filter_nil, map_nil, append_nil, his]
  | cons e entries ih =>
    have hlt : e.2 % devices.length < devices.length := Nat.mod_lt _ (Nat.zero_lt_of_lt hk)
    obtain ⟨served, hserved⟩ : ∃ served, devices[e.2 % devices.length]? = some served :=
      ⟨_, getElem?_eq_getElem hlt⟩
    have hdeal : dealIntegration devices c e =
        setIntegrations c served.name (((c served.name).integrations.getD []) ++ [e.1]) := by
      rw [dealIntegration, hserved]
    rw [foldl_cons, hdeal]
    by_cases hturn : e.2 % devices.length = k
    · obtain rfl : served = key := Option.some.inj (hserved.symm.trans (hturn ▸ hkey))
      have hnext : (setIntegrations c served.name
          (((c served.name).integrations.getD []) ++ [e.1]) served.name).integrations =
            some (is ++ [e.1]) := by
        rw [setIntegrations, Function.update_self, his]
        rfl
      rw [ih hnext, filter_cons_of_pos (by simpa using hturn), map_cons,
        append_assoc]
      rfl
    · have hother : key.name ≠ served.name := by
        intro hname
        have hpositions : (devices.map DeviceKey.name)[k]? =
            (devices.map DeviceKey.name)[e.2 % devices.length]? := by
          rw [getElem?_map, getElem?_map, hkey, hserved]
          exact congrArg some hname
        exact hturn ((getElem?_inj (by rwa [length_map]) hnames).mp hpositions).symm
      have hnext : (setIntegrations c served.name
          (((c served.name).integrations.getD []) ++ [e.1]) key.name).integrations = some is := by
        rw [setIntegrations, Function.update_of_ne hother, his]
      rw [ih hnext, filter_cons_of_neg (by simpa using hturn)]

theorem dealIntegrations_hand {devices : List (DeviceKey ν)}
    (hnames : (devices.map DeviceKey.name).Nodup) (hlisted : ∀ key ∈ devices, key.name ∈ names)
    (integrations : List String) (c : Records ν) {key : DeviceKey ν}
    (hkey : devices[k]? = some key) :
    (dealIntegrations names devices integrations c key.name).integrations =
      some (hand devices.length k integrations) := by
  have hk : k < devices.length := (List.getElem?_eq_some_iff.mp hkey).1
  have hcleared : (withoutIntegrations names c key.name).integrations = some [] := by
    rw [withoutIntegrations, if_pos (hlisted key (mem_of_getElem? hkey))]
  rw [dealIntegrations, if_pos (Nat.zero_lt_of_lt hk),
    foldl_dealIntegration hnames hkey _ hcleared]
  rfl

/-! ### The devices in the order of service -/

variable [LinearOrder ν]

/-- The first device is served before the second one. -/
def ServedBefore (c : Records ν) (n m : String) : Prop :=
  (c m).signal < (c n).signal ∨ ((c m).signal = (c n).signal ∧ m < n)

theorem rankedDevices_perm (names : List String) (c : Records ν) :
    ((rankedDevices names c).map DeviceKey.name).Perm names := by
  have hperm := (tableSort_perm sortSignals (names.map (keyOf c))).map DeviceKey.name
  rw [List.map_map] at hperm
  exact hperm.trans (.of_eq (List.map_id names))

theorem rankedDevices_pairwise (hnames : names.Nodup) (c : Records ν) :
    ((rankedDevices names c).map DeviceKey.name).Pairwise (ServedBefore c) := by
  have hsorted := tableSort_pairwise_lt strictTotal_sortSignals (hnames.map (keyOf_injective c))
  rw [pairwise_map]
  refine hsorted.imp_of_mem ?_
  intro x y hx hy hlt
  obtain ⟨n, -, rfl⟩ := List.mem_map.mp (mem_tableSort.mp hx)
  obtain ⟨m, -, rfl⟩ := List.mem_map.mp (mem_tableSort.mp hy)
  rwa [sortSignals_iff, signalRank, signalRank, Prod.Lex.toLex_lt_toLex] at hlt

theorem assigned_integrations {integrations : List String} (hnames : names.Nodup)
    {c new : Records ν} (h : assigned integrations names c = some new) {n : String}
    (hn : ((rankedDevices names c).map DeviceKey.name)[k]? = some n) :
    (new n).integrations = some (hand names.length k integrations) := by
  have hperm := rankedDevices_perm names c
  have hlength : (rankedDevices names c).length = names.length := by
    rw [← hperm.length_eq, length_map]
  rw [getElem?_map, map_eq_some_iff] at hn
  obtain ⟨key, hkey, rfl⟩ := hn
  have hdealt := dealIntegrations_hand (hperm.nodup_iff.mpr hnames)
    (fun key hmem => hperm.mem_iff.mp (List.mem_map_of_mem hmem)) integrations
    (settled names c) hkey
  -- the later passes write sources only
  have hsources := (sameButSource_assignOwnSinks (freeDevices names c) (openGroups names c)
    (dealIntegrations names (rankedDevices names c) integrations (settled names c))
    (rankedDevices names c)).trans (sameButSource_assignRemaining h) key.name
  rw [← hlength, ← hdealt]
  have hintegrations := congrArg Device.integrations hsources
  exact hintegrations

/-- The integrations are dealt out to the devices in the order of their signals and
names: each goes to one device, and no device has two more than another. -/
theorem assignGroups_integrations (ord : PairsOrders ν) (integrations : List String)
    (config : Config ν) (hconfig : config.names ≠ []) :
    ∃ new delta, assignGroups ord integrations config = some (new, delta) ∧
      new.names = config.names ∧
      (∃ served : List String, served.Perm config.names ∧
        served.Pairwise (ServedBefore config.dev) ∧
        ∀ k n, served[k]? = some n →
          (new.dev n).integrations = some (hand served.length k integrations)) ∧
      (config.names.flatMap fun n => (new.dev n).integrations.getD []).Perm integrations ∧
      (integrations.Nodup → ∀ i ∈ integrations,
        ∃! n, n ∈ config.names ∧ i ∈ (new.dev n).integrations.getD []) ∧
      ∀ n ∈ config.names, ∀ m ∈ config.names,
        ((new.dev n).integrations.getD []).length ≤
          ((new.dev m).integrations.getD []).length + 1 := by
  obtain ⟨new, hnew, -⟩ := assigned_spec integrations config.nodup config.dev
  refine ⟨{ config with dev := new }, fun n =>
    if n ∈ config.names then deltaEntry (config.dev n) (new n) else none,
    by rw [assignGroups_eq, hnew, map_some], rfl, ?_⟩
  generalize hserved : (rankedDevices config.names config.dev).map DeviceKey.name = served
  have hperm : served.Perm config.names := hserved ▸ rankedDevices_perm config.names config.dev
  have hpos : 0 < config.names.length := length_pos_of_ne_nil hconfig
  have hdealt : ∀ k n, served[k]? = some n →
      (new n).integrations = some (hand config.names.length k integrations) := by
    intro k n hn
    exact assigned_integrations config.nodup hnew (hserved ▸ hn)
  have hposition : ∀ n ∈ config.names, ∃ k < config.names.length,
      (new n).integrations.getD [] = hand config.names.length k integrations := by
    intro n hn
    obtain ⟨k, hk⟩ := mem_iff_getElem?.mp (hperm.mem_iff.mpr hn)
    refine ⟨k, hperm.length_eq ▸ (List.getElem?_eq_some_iff.mp hk).1, ?_⟩
    rw [hdealt k n hk, getD_some]
  have hall : (config.names.flatMap fun n => (new n).integrations.getD []).Perm integrations := by
    refine (hperm.symm.flatMap_right _).trans ?_
    rw [flatMap_eq_range fun k n hn => congrArg (Option.getD · []) (hdealt k n hn),
      hperm.length_eq]
    exact hands_perm hpos integrations
  refine ⟨⟨served, hperm, hserved ▸ rankedDevices_pairwise config.nodup config.dev, ?_⟩,
    hall, ?_, ?_⟩
  · rw [hperm.length_eq]
    exact hdealt
  · intro hnodup i hi
    obtain ⟨n, hn, hin⟩ := mem_flatMap.mp (hall.mem_iff.mpr hi)
    refine ⟨n, ⟨hn, hin⟩, ?_⟩
    rintro m ⟨hm, him⟩
    exact eq_of_mem_parts (hall.nodup_iff.mpr hnodup) hm hn him hin
  · intro n hn m hm
    obtain ⟨j, hj, hnj⟩ := hposition n hn
    obtain ⟨k, hk, hmk⟩ := hposition m hm
    rw [hnj, hmk]
    exact length_hand_le hj hk integrations

/-- Two devices, the weaker one with integrations of its own, and three integrations. -/
def twoDevices : Config ℤ where
  names := ["devA", "devB"]
  nodup := by decide
  dev n := if n = "devA" then ⟨"1", "1", -60, 1000, some ["rdio", "pandora"]⟩
    else ⟨"2", "2", -50, 1000, none⟩

theorem assignGroups_integrations_two :
    ∃ new delta, assignGroups .asListed ["pandora", "rdio", "spotify"] twoDevices =
        some (new, delta) ∧
      (new.dev "devB").integrations = some ["pandora", "spotify"] ∧
      (new.dev "devA").integrations = some ["rdio"] ∧
      (twoDevices.names.flatMap fun n => (new.dev n).integrations.getD []).Perm
        ["pandora", "rdio", "spotify"] := by
  obtain ⟨new, delta, hresult, -, -, hperm, -⟩ := assignGroups_integrations .asListed
    ["pandora", "rdio", "spotify"] twoDevices (by decide)
  have htest : (assignGroups .asListed ["pandora", "rdio", "spotify"] twoDevices).any
      (fun result => decide ((result.1.dev "devB").integrations = some ["pandora", "spotify"] ∧
        (result.1.dev "devA").integrations = some ["rdio"])) = true := by
    decide +kernel
  rw [hresult, any_some] at htest
  obtain ⟨hB, hA⟩ := of_decide_eq_true htest
  exact ⟨new, delta, hresult, hB, hA, hperm⟩

end BeepMusic.Grouper
