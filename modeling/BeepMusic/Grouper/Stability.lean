import BeepMusic.Grouper.Grouping

/-!
What the assigning passes of `assign_groups` rely on and what they leave alone.
A device whose claim to its source prevails keeps it, and the last loop, which
hands out the groups left over, never runs out of devices: the own-sink loop
uses up at most one device for each group that it takes off the list.
-/

namespace BeepMusic.Grouper

open Lib List

variable {ν : Type} [LinearOrder ν] (ord : PairsOrders ν) (integrations : List String)
  (config : Config ν)

/-- A source is kept by the claimant with the earliest `source_time`, and on
equal times by the one with the greatest name, as long as its group has a
listener; a device that is given another group had no such claim. -/
theorem assignGroups_keeps_sources :
    ∃ new delta, assignGroups ord integrations config = some (new, delta) ∧
      (∀ n ∈ config.names, (config.dev n).source ≠ noSource →
        (∃ m ∈ config.names, (config.dev m).sink = (config.dev n).source) →
        (∀ m ∈ config.names, m ≠ n → (config.dev m).source = (config.dev n).source →
          (config.dev n).sourceTime < (config.dev m).sourceTime ∨
            ((config.dev n).sourceTime = (config.dev m).sourceTime ∧ m < n)) →
        (new.dev n).source = (config.dev n).source) ∧
      ∀ n ∈ config.names, (new.dev n).source ≠ (config.dev n).source →
        (new.dev n).source ≠ noSource →
        (config.dev n).source = noSource ∨
          (∀ m ∈ config.names, (config.dev m).sink ≠ (config.dev n).source) ∨
          ∃ m ∈ config.names, m ≠ n ∧ (config.dev m).source = (config.dev n).source ∧
            ((config.dev m).sourceTime < (config.dev n).sourceTime ∨
              ((config.dev m).sourceTime = (config.dev n).sourceTime ∧ n < m)) := by
  obtain ⟨new, hnew, -, hkept, -⟩ := assigned_spec integrations config.nodup config.dev
  refine ⟨{ config with dev := new }, _, by rw [assignGroups_eq, hnew, Option.map_some], ?_, ?_⟩
  · intro n hn hsource hsink hfirst
    exact hkept n hn ⟨hsource, hfirst, hsink⟩
  · intro n hn hchanged _
    by_contra hclaim
    push Not at hclaim
    obtain ⟨hsource, hsink, hbeaten⟩ := hclaim
    refine hchanged (hkept n hn ⟨hsource, fun m hm hne heq => ?_, hsink⟩)
    apply beats_of_not_beats hne
    rintro (hlt | ⟨htime, hname⟩)
    · exact absurd hlt (not_lt.mpr (hbeaten m hm hne heq).1)
    · exact absurd hname (not_lt.mpr ((hbeaten m hm hne heq).2 htime))

/-! ### The last loop -/

/-- What the last loop of `assign_groups` starts from: the groups left over, the
devices without a source and the records. -/
structure LastLoop (ν : Type) where
  groups : List String
  nonSources : List (DeviceKey ν)
  records : Records ν

/-- `assign_groups` up to its last loop. -/
def lastLoop : LastLoop ν :=
  let names := config.names
  let deduped := removeDuplicateSources ord names config.dev
  let sets := collectSets ord names deduped
  let culled := cullOrphanSources ord names sets.1 sets.2 deduped
  let sinkSet := dropSourced ord culled.2 sets.2
  let groups := tableSort sortDescending (ord.listGroups.order sinkSet)
  let deviceSet := buildDeviceSet ord names culled.1
  let devices := tableSort sortSignals (ord.listDevices.order deviceSet)
  let integrated := assignIntegrations ord names devices integrations culled.1
  let nonSourceSet := dropSources ord integrated deviceSet
  let nonSources := tableSort sortSignals (ord.listNonSources.order nonSourceSet)
  let own := assignOwnSinks nonSources groups integrated devices
  ⟨own.2.2, nonSources, own.1⟩

/-- The outcome of the own-sink loop, which does not depend on the orders. -/
def ownAssigned (integrations names : List String) (c : Records ν) :
    Records ν × List (DeviceKey ν) × List String :=
  assignOwnSinks (freeDevices names c) (openGroups names c)
    (dealIntegrations names (rankedDevices names c) integrations (settled names c))
    (rankedDevices names c)

theorem lastLoop_eq : lastLoop ord integrations config =
      ⟨(ownAssigned integrations config.names config.dev).2.2,
        freeDevices config.names config.dev,
        (ownAssigned integrations config.names config.dev).1⟩ := by
  have hculled := culled_fst ord config.names config.dev
  have hgroups := groups_eq ord config.names config.dev
  simp only [culled] at hculled hgroups
  simp only [lastLoop, removeDuplicateSources_eq, hculled, hgroups, devices_eq,
    assignIntegrations_eq]
  have hsources (n : String) := (sameBut_dealIntegrations config.names
    (rankedDevices config.names config.dev) integrations (settled config.names config.dev) n).1
  rw [nonSources_eq ord config.nodup config.dev _ hsources]
  rfl

/-- The listed devices that have no source. -/
def unassigned (keys : List (DeviceKey ν)) (c : Records ν) : ℕ :=
  keys.countP fun key => (c key.name).source = noSource

section

variable {keys : List (DeviceKey ν)} {c : Records ν}

omit [LinearOrder ν] in
theorem unassigned_congr {c' : Records ν}
    (h : ∀ key ∈ keys, (c' key.name).source = (c key.name).source) :
    unassigned keys c' = unassigned keys c := by
  apply countP_congr
  intro key hkey
  simp [h key hkey]

omit [LinearOrder ν] in
/-- To give one device a source uses up at most that device. -/
theorem unassigned_setSource (hkeys : (keys.map DeviceKey.name).Nodup) (n g : String) :
    unassigned keys c ≤ unassigned keys (setSource c n g) + 1 := by
  induction keys with
  | nil => exact Nat.zero_le _
  | cons key keys ih =>
    rw [map_cons, nodup_cons] at hkeys
    by_cases hname : key.name = n
    · have hrest : unassigned keys (setSource c n g) = unassigned keys c := by
        apply unassigned_congr
        intro key' hkey'
        rw [setSource_of_ne]
        rintro rfl
        exact hkeys.1 (hname ▸ List.mem_map_of_mem hkey')
      simp only [unassigned, countP_cons] at hrest ⊢
      split <;> omega
    · have ih := ih hkeys.2
      simp only [unassigned, countP_cons, setSource_of_ne c g hname] at ih ⊢
      omega

omit [LinearOrder ν] in
/-- Along the own-sink loop, the groups taken off the list pay for the devices
that get a source. -/
theorem assignOwnSinks_unassigned (hkeys : (keys.map DeviceKey.name).Nodup) (gs : List String)
    (devices : List (DeviceKey ν)) :
    (assignOwnSinks keys gs c devices).2.2.length + unassigned keys c ≤
      gs.length + unassigned keys (assignOwnSinks keys gs c devices).1 := by
  induction gs generalizing c devices with
  | nil => exact Nat.le_refl _
  | cons g gs ih =>
    rw [assignOwnSinks]
    split
    · rename_i j key _ _
      have hstep := unassigned_setSource (c := c) hkeys key.name g
      have hrest := ih (c := setSource c key.name g) (devices.eraseIdx j)
      rw [length_cons]
      omega
    · have hrest := ih (c := c) devices
      simp only [length_cons]
      omega

end

/-- The own-sink loop leaves over at most as many groups as there are devices
that still have no source. -/
theorem ownAssigned_leftover_le {names : List String} (hnames : names.Nodup) (c : Records ν) :
    (ownAssigned integrations names c).2.2.length ≤
      unassigned (freeDevices names c) (ownAssigned integrations names c).1 := by
  -- before the loop no listed device has a source
  have hall : unassigned (freeDevices names c) (dealIntegrations names (rankedDevices names c)
      integrations (settled names c)) = (freeDevices names c).length := by
    apply countP_eq_length.mpr
    intro key hkey
    obtain ⟨n, hn, hk, rfl⟩ := mem_freeDevices.mp hkey
    apply decide_eq_true
    rw [(sameBut_dealIntegrations _ _ _ _ _).1]
    exact (settled_source names c hn).trans (if_neg hk)
  have hcount := assignOwnSinks_unassigned (nodup_freeDevices (c := c) hnames)
    (openGroups names c) (rankedDevices names c)
    (c := dealIntegrations names (rankedDevices names c) integrations (settled names c))
  have hgroups := length_openGroups_le (c := c) hnames
  rw [ownAssigned]
  omega

/-- The last loop of `assign_groups` never runs past the end of its list of
devices: there are at most as many groups left over as devices without a source,
so that every index of the loop has a device and the function returns. -/
theorem lastLoop_in_range : (assignGroups ord integrations config =
      (assignRemaining (lastLoop ord integrations config).groups
        (lastLoop ord integrations config).nonSources
        (lastLoop ord integrations config).records).map fun new =>
          ({ config with dev := new }, deltaOf ord config.names config.dev new)) ∧
    (lastLoop ord integrations config).groups.length ≤
      unassigned (lastLoop ord integrations config).nonSources
        (lastLoop ord integrations config).records ∧
    (∀ k < (lastLoop ord integrations config).groups.length,
      ∃ key, (lastLoop ord integrations config).nonSources[k]? = some key) ∧
    assignGroups ord integrations config ≠ none := by
  have hle : (lastLoop ord integrations config).groups.length ≤
      unassigned (lastLoop ord integrations config).nonSources
        (lastLoop ord integrations config).records := by
    rw [lastLoop_eq]
    exact ownAssigned_leftover_le integrations config.nodup config.dev
  refine ⟨rfl, hle, fun k hk => ?_, ?_⟩
  · have hlt := hk.trans_le (hle.trans countP_le_length)
    exact ⟨_, getElem?_eq_getElem hlt⟩
  · obtain ⟨new, hnew, -⟩ := assigned_spec integrations config.nodup config.dev
    rw [assignGroups_eq, hnew, Option.map_some]
    exact Option.some_ne_none _

end BeepMusic.Grouper
