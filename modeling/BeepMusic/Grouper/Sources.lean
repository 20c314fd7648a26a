import BeepMusic.Grouper.Canonical

/-!
Which device ends up as the source of which group. The passes after the
culling first give a group to a free device that listens to it, and then hand
the groups left over to the free devices from the strongest on, without
skipping those that were just given a group. The result is a proper grouping
exactly when the groups left over run out before such a device is reached.
-/

namespace BeepMusic.Grouper

open Lib List

variable {ν : Type} [LinearOrder ν]

/-! ### The two assigning passes -/

/-- The first listed device that listens to `g`. -/
def firstListener (nonSources : List (DeviceKey ν)) (c : Records ν) (g : String) :
    Option (DeviceKey ν) :=
  nonSources.find? fun key => (c key.name).sink = g

variable {nonSources : List (DeviceKey ν)} {c : Records ν} {g : String}

omit [LinearOrder ν] in
/-- A device that listens to a group still to be assigned has no source yet, so
the search of the loop is the search for the first listener. -/
theorem find?_free
    (hfree : ∀ key ∈ nonSources, (c key.name).sink = g → (c key.name).source = noSource) :
    nonSources.find? (awaitsGroup c g) = firstListener nonSources c g := by
  rw [firstListener]
  induction nonSources with
  | nil => rfl
  | cons key keys ih =>
    have ih := ih fun key hkey => hfree key (mem_cons_of_mem _ hkey)
    by_cases hsink : (c key.name).sink = g
    · simp [awaitsGroup, hsink, hfree key (mem_cons_self ..) hsink]
    · rw [find?_cons_of_neg (by simp [awaitsGroup, hsink]), ih,
        find?_cons_of_neg (by simpa using hsink)]

omit [LinearOrder ν] in
/-- What one iteration of the own-sink loop does. -/
theorem assignOwnSinks_cons (gs : List String) (devices : List (DeviceKey ν))
    (hfree : ∀ key ∈ nonSources, (c key.name).sink = g → (c key.name).source = noSource) :
    (∃ key devices', firstListener nonSources c g = some key ∧
      assignOwnSinks nonSources (g :: gs) c devices =
        assignOwnSinks nonSources gs (setSource c key.name g) devices') ∨
    (firstListener nonSources c g = none ∧
      (assignOwnSinks nonSources (g :: gs) c devices).1 =
        (assignOwnSinks nonSources gs c devices).1 ∧
      (assignOwnSinks nonSources (g :: gs) c devices).2.2 =
        g :: (assignOwnSinks nonSources gs c devices).2.2) := by
  have hfind := find?_free hfree
  rw [assignOwnSinks]
  cases hl : firstListener nonSources c g with
  | none =>
    right
    rw [hl] at hfind
    simp [hfind]
  | some key =>
    left
    rw [hl] at hfind
    have hidx : ∃ j, nonSources.findIdx? (awaitsGroup c g) = some j := by
      rw [← Option.isSome_iff_exists, findIdx?_isSome, List.any_eq_true]
      exact ⟨key, mem_of_find?_eq_some hfind, find?_some hfind⟩
    obtain ⟨j, hj⟩ := hidx
    exact ⟨key, devices.eraseIdx j, rfl, by simp only [hfind, hj]⟩

omit [LinearOrder ν] in
theorem setSource_sink (c : Records ν) (n g m : String) :
    (setSource c n g m).sink = (c m).sink := by
  by_cases h : m = n
  · subst h
    rw [setSource_self]
  · rw [setSource_of_ne c g h]

omit [LinearOrder ν] in
theorem firstListener_setSource (nonSources : List (DeviceKey ν)) (c : Records ν)
    (n g h : String) :
    firstListener nonSources (setSource c n g) h = firstListener nonSources c h := by
  simp only [firstListener, setSource_sink]

omit [LinearOrder ν] in
theorem sink_of_firstListener {key : DeviceKey ν} (h : firstListener nonSources c g = some key) :
    (c key.name).sink = g := by
  simpa using find?_some h

section ownSinks

variable {nonSources : List (DeviceKey ν)} {gs : List String} {c : Records ν}

omit [LinearOrder ν] in
/-- The own-sink loop leaves over the groups nobody free listens to, and makes the first
listener of each other group its source. -/
theorem assignOwnSinks_spec (hgs : gs.Nodup) (devices : List (DeviceKey ν))
    (hfree : ∀ key ∈ nonSources, (c key.name).sink ∈ gs → (c key.name).source = noSource) :
    (assignOwnSinks nonSources gs c devices).2.2 =
        gs.filter (fun g => firstListener nonSources c g = none) ∧
      ∀ n, ((assignOwnSinks nonSources gs c devices).1 n).sink = (c n).sink ∧
        ((assignOwnSinks nonSources gs c devices).1 n).source =
          if (c n).sink ∈ gs ∧ (firstListener nonSources c (c n).sink).map DeviceKey.name = some n
          then (c n).sink else (c n).source := by
  induction gs generalizing c devices with
  | nil => simp [assignOwnSinks]
  | cons g gs ih =>
    rw [nodup_cons] at hgs
    have hg : ∀ key ∈ nonSources, (c key.name).sink = g → (c key.name).source = noSource :=
      fun key hkey hsink => hfree key hkey (hsink ▸ mem_cons_self ..)
    rcases assignOwnSinks_cons gs devices hg with ⟨key, devices', hl, heq⟩ | ⟨hl, heq, hleft⟩
    · have hkeysink := sink_of_firstListener hl
      obtain ⟨hleft, hrecord⟩ := ih hgs.2 devices' (c := setSource c key.name g) (by
        intro key' hkey' hsink
        rw [setSource_sink] at hsink
        have hne : key'.name ≠ key.name := by
          intro h
          rw [h, hkeysink] at hsink
          exact hgs.1 hsink
        rw [setSource_of_ne c g hne]
        exact hfree key' hkey' (mem_cons_of_mem _ hsink))
      rw [heq]
      simp only [setSource_sink, firstListener_setSource] at hleft hrecord
      refine ⟨by simp [hleft, hl], fun n => ⟨(hrecord n).1, (hrecord n).2.trans ?_⟩⟩
      by_cases hn : n = key.name
      · subst hn
        simp [hkeysink, hgs.1, hl]
      · rw [setSource_of_ne c g hn]
        by_cases hsink : (c n).sink = g
        · have : ¬key.name = n := fun h => hn h.symm
          simp [hsink, hgs.1, hl, this]
        · simp [hsink]
    · obtain ⟨hrest, hrecord⟩ := ih hgs.2 devices (fun key' hkey' hsink =>
        hfree key' hkey' (mem_cons_of_mem _ hsink))
      rw [hleft, heq]
      refine ⟨by simp [hrest, hl], fun n => ⟨(hrecord n).1, (hrecord n).2.trans ?_⟩⟩
      by_cases hsink : (c n).sink = g
      · simp [hsink, hl, hgs.1]
      · simp [hsink]

end ownSinks

omit [LinearOrder ν] in
/-- The last loop succeeds when the devices suffice; it hands out the groups in
order and leaves all other devices alone. -/
theorem assignRemaining_spec {groups : List String} {keys : List (DeviceKey ν)}
    (hkeys : (keys.map DeviceKey.name).Nodup) (hlen : groups.length ≤ keys.length)
    (c : Records ν) :
    ∃ new, assignRemaining groups keys c = some new ∧
      (∀ n, (new n).sink = (c n).sink) ∧
      (∀ (k : ℕ) (g : String) (key : DeviceKey ν), groups[k]? = some g → keys[k]? = some key →
        (new key.name).source = g) ∧
      (∀ n, (∀ (k : ℕ) (key : DeviceKey ν), k < groups.length → keys[k]? = some key →
          key.name ≠ n) →
        (new n).source = (c n).source) := by
  induction groups generalizing keys c with
  | nil => exact ⟨c, rfl, by simp, by simp, by simp⟩
  | cons g groups ih =>
    cases keys with
    | nil => simp at hlen
    | cons key keys =>
      simp only [map_cons, nodup_cons, List.mem_map, not_exists, not_and] at hkeys
      simp only [length_cons, Nat.add_le_add_iff_right] at hlen
      obtain ⟨new, hnew, hsink, hget, hrest⟩ := ih hkeys.2 hlen (setSource c key.name g)
      refine ⟨new, hnew, fun n => by rw [hsink, setSource_sink], ?_, ?_⟩
      · intro k g' key' hg hkey
        cases k with
        | zero =>
          simp only [getElem?_cons_zero, Option.some.injEq] at hg hkey
          subst hg hkey
          rw [hrest, setSource_self]
          intro k key' _ hkey'
          exact hkeys.1 key' (mem_of_getElem? hkey')
        | succ k => exact hget k g' key' (by simpa using hg) (by simpa using hkey)
      · intro n hn
        have hne : n ≠ key.name := fun h => hn 0 key (by simp) (by simp) h.symm
        rw [hrest n, setSource_of_ne c g hne]
        intro k key' hk hkey'
        exact hn (k + 1) key' (by simpa using hk) (by simpa using hkey')

/-! ### Free devices and groups left over -/

section counting

variable (names : List String) (c : Records ν)

/-- The groups that have a listener but neither a source nor a free listener. -/
def starvedGroups : List String :=
  (names.map fun n => (c n).sink).dedup.filter fun g =>
    ¬Sourced names c g ∧ ∀ n ∈ names, (c n).sink = g → Keeps names c n

/-- How many free devices are stronger than `n`. -/
def strongerFree (n : String) : ℕ :=
  (names.filter fun m =>
    ¬Keeps names c m ∧ sortSignals (keyOf c m) (keyOf c n) = true).length

/-- The groups that the own-sink loop leaves over, in the order of the code. -/
def leftoverGroups : List String :=
  (openGroups names c).filter fun g => firstListener (freeDevices names c) c g = none

variable {names c}

variable {g : String}

theorem mem_openGroups :
    g ∈ openGroups names c ↔ (∃ n ∈ names, (c n).sink = g) ∧ ¬Sourced names c g := by
  simp [openGroups]

theorem nodup_openGroups : (openGroups names c).Nodup :=
  nodup_tableSort.mpr ((nodup_dedup _).filter _)

theorem mem_freeDevices {key : DeviceKey ν} :
    key ∈ freeDevices names c ↔ ∃ n ∈ names, ¬Keeps names c n ∧ keyOf c n = key := by
  simp [freeDevices, and_assoc]

theorem nodup_freeDevices (hnames : names.Nodup) :
    ((freeDevices names c).map DeviceKey.name).Nodup := by
  have hperm := (tableSort_perm sortSignals
    ((names.filter fun n => ¬Keeps names c n).map (keyOf c))).map DeviceKey.name
  have hid : DeviceKey.name ∘ keyOf c = id := rfl
  rw [freeDevices, hperm.nodup_iff, List.map_map, hid, List.map_id]
  exact hnames.filter _

/-- A free device stands behind the free devices that are stronger. -/
theorem strongerFree_of_getElem? (hnames : names.Nodup) {k : ℕ} {n : String}
    (h : (freeDevices names c)[k]? = some (keyOf c n)) : strongerFree names c n = k := by
  have hnodup : ((names.filter fun n => ¬Keeps names c n).map (keyOf c)).Nodup :=
    (hnames.filter _).map (keyOf_injective c)
  have hpos := countP_lt_of_getElem? strictTotal_sortSignals
    (tableSort_pairwise_lt strictTotal_sortSignals hnodup) h
  rw [← hpos, (tableSort_perm sortSignals _).countP_eq, countP_map, countP_filter,
    countP_eq_length_filter, strongerFree]
  simp [Bool.and_comm]

theorem firstListener_eq_none :
    firstListener (freeDevices names c) c g = none ↔
      ∀ n ∈ names, (c n).sink = g → Keeps names c n := by
  simp only [firstListener, find?_eq_none, mem_freeDevices, decide_eq_true_eq]
  constructor
  · intro h n hn hsink
    by_contra hk
    exact h (keyOf c n) ⟨n, hn, hk, rfl⟩ hsink
  · rintro h key ⟨n, hn, hk, rfl⟩ hsink
    exact hk (h n hn hsink)

theorem mem_leftoverGroups :
    g ∈ leftoverGroups names c ↔ ((∃ n ∈ names, (c n).sink = g) ∧ ¬Sourced names c g) ∧
      ∀ n ∈ names, (c n).sink = g → Keeps names c n := by
  simp [leftoverGroups, mem_openGroups, firstListener_eq_none]

theorem length_leftoverGroups :
    (leftoverGroups names c).length = (starvedGroups names c).length := by
  have hleftover : (leftoverGroups names c).Nodup := nodup_openGroups.filter _
  have hstarved : (starvedGroups names c).Nodup := (nodup_dedup _).filter _
  apply List.Perm.length_eq
  rw [perm_ext_iff_of_nodup hleftover hstarved]
  intro g
  rw [mem_leftoverGroups]
  simp [starvedGroups, and_assoc]

/-- There are at least as many free devices as groups without a source: every
device listens to one group, and every source holds another. -/
theorem length_openGroups_le (hnames : names.Nodup) :
    (openGroups names c).length ≤ (freeDevices names c).length := by
  let sinks := (names.map fun n => (c n).sink).dedup
  let sources := (names.filter fun n => Keeps names c n).map fun n => (c n).source
  have hsinks : sinks.length ≤ names.length := by
    calc
      sinks.length ≤ (names.map fun n => (c n).sink).length :=
        (dedup_sublist _).length_le
      _ = names.length := length_map _
  have hnodup : sources.Nodup := by
    refine (hnames.filter _).map_on ?_
    intro n hn m hm heq
    simp only [mem_filter, decide_eq_true_eq] at hn hm
    exact hn.2.2.1.unique hn.1 hm.1 hm.2.2.1 heq
  have hsub : sources ⊆ sinks.filter fun g => Sourced names c g := by
    intro g hg
    simp only [sources, List.mem_map, mem_filter, decide_eq_true_eq] at hg
    obtain ⟨n, ⟨hn, hk⟩, rfl⟩ := hg
    simp only [sinks, mem_filter, mem_dedup, List.mem_map, decide_eq_true_eq]
    exact ⟨hk.2.2, n, hn, hk, rfl⟩
  have hsourced : (names.filter fun n => Keeps names c n).length ≤
      (sinks.filter fun g => Sourced names c g).length := by
    simpa [sources] using (hnodup.subperm hsub).length_le
  have hsplit := length_eq_length_filter_add (l := sinks) fun g => Sourced names c g
  have hnsplit := length_eq_length_filter_add (l := names) fun n => Keeps names c n
  simp only [openGroups, freeDevices, length_tableSort, length_map, sinks,
    decide_not] at *
  omega

theorem length_leftoverGroups_le (hnames : names.Nodup) :
    (leftoverGroups names c).length ≤ (freeDevices names c).length :=
  (length_filter_le _ _).trans (length_openGroups_le hnames)

end counting

/-! ### The final sources -/

omit [LinearOrder ν] in
theorem firstListener_congr {c' : Records ν} (h : ∀ n, (c' n).sink = (c n).sink) (g : String) :
    firstListener nonSources c' g = firstListener nonSources c g := by
  simp only [firstListener, h]

theorem firstListener_name_iff {names : List String} {n : String} :
    (firstListener (freeDevices names c) c g).map DeviceKey.name = some n ↔
      firstListener (freeDevices names c) c g = some (keyOf c n) := by
  constructor
  · intro hfirst
    obtain ⟨key, hkey, rfl⟩ := Option.map_eq_some_iff.mp hfirst
    obtain ⟨m, _, _, rfl⟩ := mem_freeDevices.mp (mem_of_find?_eq_some hkey)
    exact hkey
  · intro hfirst
    rw [hfirst]
    rfl

/-- The function never fails, and the four ways in which a device comes by its
final source: it kept it, it was given a group left over, it is the first
listener of a group, or it has none. -/
theorem assigned_spec (integrations : List String) {names : List String}
    (hnames : names.Nodup) (c : Records ν) :
    ∃ new, assigned integrations names c = some new ∧
      (∀ n, (new n).sink = (c n).sink) ∧
      (∀ n ∈ names, Keeps names c n → (new n).source = (c n).source) ∧
      (∀ (k : ℕ) (g n : String), (leftoverGroups names c)[k]? = some g →
        (freeDevices names c)[k]? = some (keyOf c n) → (new n).source = g) ∧
      (∀ n ∈ names, ¬Keeps names c n → (leftoverGroups names c).length ≤ strongerFree names c n →
        (new n).source =
          if (c n).sink ∈ openGroups names c ∧
            firstListener (freeDevices names c) c (c n).sink = some (keyOf c n)
          then (c n).sink else noSource) := by
  let dealt := dealIntegrations names (rankedDevices names c) integrations (settled names c)
  have hsame : SameBut (settled names c) dealt := sameBut_dealIntegrations _ _ _ _
  have hsink (n : String) : (dealt n).sink = (c n).sink := by
    rw [(hsame n).2, settled_sink]
  have hsource {n : String} (hn : n ∈ names) :
      (dealt n).source = if Keeps names c n then (c n).source else noSource := by
    rw [(hsame n).1, settled_source names c hn]
  have hfree : ∀ key ∈ freeDevices names c, (dealt key.name).sink ∈ openGroups names c →
      (dealt key.name).source = noSource := by
    intro key hkey _
    obtain ⟨n, hn, hk, rfl⟩ := mem_freeDevices.mp hkey
    exact (hsource hn).trans (if_neg hk)
  obtain ⟨hleft, hown⟩ := assignOwnSinks_spec nodup_openGroups (rankedDevices names c) hfree
  simp only [firstListener_congr hsink, hsink] at hown hleft
  obtain ⟨new, hnew, hnsink, hget, hrest⟩ :=
    assignRemaining_spec (nodup_freeDevices hnames) (length_leftoverGroups_le hnames)
      (assignOwnSinks (freeDevices names c) (openGroups names c) dealt (rankedDevices names c)).1
  refine ⟨new, ?_, fun n => (hnsink n).trans (hown n).1, ?_, ?_, ?_⟩
  · simp only [assigned]
    rw [hleft]
    exact hnew
  · intro n hn hk
    rw [hrest n, (hown n).2, hsource hn, if_pos hk, if_neg]
    · rintro ⟨_, hfirst⟩
      obtain ⟨key, hkey, rfl⟩ := Option.map_eq_some_iff.mp hfirst
      obtain ⟨m, _, hmk, rfl⟩ := mem_freeDevices.mp (mem_of_find?_eq_some hkey)
      exact hmk hk
    · rintro k key _ hkey rfl
      obtain ⟨m, _, hmk, rfl⟩ := mem_freeDevices.mp (mem_of_getElem? hkey)
      exact hmk hk
  · intro k g n hg hkey
    exact hget k g (keyOf c n) hg hkey
  · intro n hn hk hlen
    rw [hrest n, (hown n).2, hsource hn, if_neg hk]
    · simp only [firstListener_name_iff]
    · rintro k key hk' hkey rfl
      obtain ⟨m, _, _, rfl⟩ := mem_freeDevices.mp (mem_of_getElem? hkey)
      have hpos := strongerFree_of_getElem? hnames hkey
      change _ ≤ strongerFree names c m at hlen
      omega

/-- The new configuration has the devices of the old one with their sinks. -/
theorem assignGroups_sink {ord : PairsOrders ν} {integrations : List String}
    {config newConfig : Config ν} {delta : String → Option DeltaEntry}
    (h : assignGroups ord integrations config = some (newConfig, delta)) :
    newConfig.names = config.names ∧ ∀ n, (newConfig.dev n).sink = (config.dev n).sink := by
  obtain ⟨new, hnew, hsink, -⟩ := assigned_spec integrations config.nodup config.dev
  rw [assignGroups_eq, hnew] at h
  obtain ⟨rfl, -⟩ := Prod.mk.inj (Option.some.inj h)
  exact ⟨rfl, hsink⟩

end BeepMusic.Grouper
