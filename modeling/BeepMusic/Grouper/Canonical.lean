import BeepMusic.Grouper.Dedupe

/-!
The order-free form of `assign_groups`. Each pass over a table is replaced by
what it computes: the records after the culling passes, the sorted groups that
need a source, the sorted devices that are free to become one. None of these
mentions the order of a `pairs` loop, so `assignGroups_eq` is the statement
that the function does not depend on any of them.
-/

namespace BeepMusic.Grouper

open Lib List

variable {ν : Type} [LinearOrder ν]

/-! ### The comparison functions -/

theorem strictTotal_sortDescending : StrictTotal sortDescending where
  irrefl a := by simp [sortDescending]
  trans a b c hab hbc := by
    simp only [sortDescending, decide_eq_true_eq] at hab hbc ⊢
    exact lt_trans hbc hab
  connected a b hab hba := by
    simp only [sortDescending, decide_eq_false_iff_not, gt_iff_lt, not_lt] at hab hba
    exact le_antisymm hab hba

/-- The sort position of a device: by signal, then by name. -/
def signalRank (key : DeviceKey ν) : Lex (ν × String) := toLex (key.signal, key.name)

theorem sortSignals_iff {x y : DeviceKey ν} :
    sortSignals x y = true ↔ signalRank y < signalRank x := by
  rw [sortSignals, signalRank, signalRank, Prod.Lex.toLex_lt_toLex]
  by_cases h : x.signal = y.signal
  · simp [h]
  · simp [h, Ne.symm h]

theorem strictTotal_sortSignals : StrictTotal (sortSignals (ν := ν)) where
  irrefl a := by
    rw [← Bool.not_eq_true, sortSignals_iff]
    exact lt_irrefl _
  trans a b c hab hbc := by
    rw [sortSignals_iff] at hab hbc ⊢
    exact lt_trans hbc hab
  connected a b hab hba := by
    rw [← Bool.not_eq_true, sortSignals_iff, not_lt] at hab hba
    have h := congrArg ofLex (le_antisymm hab hba)
    simp only [signalRank, ofLex_toLex, Prod.mk.injEq] at h
    cases a
    simp_all

/-! ### The records after the culling passes -/

/-- A device that is still the source of its group once the duplicate sources
and the sources of empty groups are removed. -/
def Keeps (names : List String) (c : Records ν) (n : String) : Prop :=
  (c n).source ≠ noSource ∧ Prevails names c n ∧ ∃ m ∈ names, (c m).sink = (c n).source
deriving Decidable

/-- The records when the culling is done. -/
def settled (names : List String) (c : Records ν) : Records ν := fun n =>
  if n ∈ names ∧ ¬Keeps names c n then (c n).cleared else c n

variable (ord : PairsOrders ν) (names : List String) (c : Records ν)

@[simp] theorem settled_sink (n : String) :
    (settled names c n).sink = (c n).sink := by
  rw [settled]
  split <;> rfl

@[simp] theorem settled_signal (n : String) :
    (settled names c n).signal = (c n).signal := by
  rw [settled]
  split <;> rfl

@[simp] theorem deduped_sink (n : String) :
    (deduped names c n).sink = (c n).sink := by
  rw [deduped]
  split <;> rfl

theorem deduped_source {n : String} (hn : n ∈ names) :
    (deduped names c n).source = if Prevails names c n then (c n).source else noSource := by
  by_cases h : Prevails names c n
  · simp [deduped, h]
  · simp [deduped, h, hn, Device.cleared]

theorem settled_source {n : String} (hn : n ∈ names) :
    (settled names c n).source = if Keeps names c n then (c n).source else noSource := by
  by_cases h : Keeps names c n
  · simp [settled, h]
  · simp [settled, h, hn, Device.cleared]

omit [LinearOrder ν] in
theorem foldl_cullDevices (l : List String) (source : String) (c : Records ν) :
    l.foldl (fun c n => if (c n).source = source then setSource c n noSource else c) c =
      fun m => if m ∈ l ∧ (c m).source = source then (c m).cleared else c m := by
  induction l generalizing c with
  | nil => simp
  | cons a l ih =>
    rw [foldl_cons, ih]
    funext m
    by_cases ha : (c a).source = source
    · by_cases hm : m = a
      · subst hm
        simp only [ha, if_true, setSource_self, mem_cons, true_or, true_and]
        split <;> rfl
      · simp [ha, setSource_of_ne c _ hm, hm]
    · by_cases hm : m = a
      · subst hm
        simp [ha]
      · simp [ha, hm]

omit [LinearOrder ν] in
theorem cullDevices_eq (source : String) (c : Records ν) : cullDevices ord names source c =
      fun m => if m ∈ names ∧ (c m).source = source then (c m).cleared else c m := by
  rw [cullDevices, foldl_cullDevices]
  simp

omit [LinearOrder ν] in
theorem foldl_cullOrphanSources (l set sinkSet : List String) (c : Records ν) :
    l.foldl (fun (st : Records ν × List String) source =>
        if source ∈ sinkSet then st
        else (cullDevices ord names source st.1, st.2.erase source)) (c, set) =
      ((fun m => if m ∈ names ∧ (c m).source ∈ l ∧ (c m).source ∉ sinkSet then (c m).cleared
          else c m),
        l.foldl (fun set source => if source ∉ sinkSet then set.erase source else set) set) := by
  induction l generalizing c set with
  | nil => simp
  | cons a l ih =>
    by_cases ha : a ∈ sinkSet
    · simp only [foldl_cons, ha, if_true, not_true, if_false]
      rw [ih]
      congr 1
      funext m
      by_cases hm : (c m).source = a
      · simp [hm, ha]
      · simp [hm]
    · simp only [foldl_cons, ha, if_false, not_false_iff, if_true]
      rw [ih, cullDevices_eq]
      congr 1
      funext m
      by_cases hm : m ∈ names ∧ (c m).source = a
      · simp only [hm, and_self, if_true, ha, not_false_iff, mem_cons, true_or]
        split <;> rfl
      · by_cases hn : m ∈ names
        · simp [hn, show (c m).source ≠ a from fun h => hm ⟨hn, h⟩]
        · simp [hn]

omit [LinearOrder ν] in
theorem collectSets_eq :
    collectSets ord names c =
      ((ord.collectSets.order names).foldl (fun set n =>
          if (c n).source ≠ noSource then set.insert (c n).source else set) [],
        (ord.collectSets.order names).foldl (fun set n =>
          if True then set.insert (c n).sink else set) []) := by
  simp only [if_true]
  exact foldl_pair
    (fun set n => if (c n).source ≠ noSource then set.insert (c n).source else set)
    (fun set n => set.insert (c n).sink) (ord.collectSets.order names) [] []

omit [LinearOrder ν] in
theorem mem_collectSets_fst {g : String} : g ∈ (collectSets ord names c).1 ↔
      ∃ n ∈ names, (c n).source ≠ noSource ∧ (c n).source = g := by
  rw [collectSets_eq, mem_foldl_insert (fun n => (c n).source ≠ noSource) fun n => (c n).source]
  simp

omit [LinearOrder ν] in
theorem mem_collectSets_snd {g : String} :
    g ∈ (collectSets ord names c).2 ↔ ∃ n ∈ names, (c n).sink = g := by
  rw [collectSets_eq, mem_foldl_insert (fun _ => True) fun n => (c n).sink]
  simp

omit [LinearOrder ν] in
theorem nodup_collectSets :
    (collectSets ord names c).1.Nodup ∧ (collectSets ord names c).2.Nodup := by
  rw [collectSets_eq]
  exact ⟨nodup_foldl_insert (fun n => (c n).source ≠ noSource) (fun n => (c n).source)
      nodup_nil,
    nodup_foldl_insert (fun _ => True) (fun n => (c n).sink) nodup_nil⟩

/-- A group with a source, once the culling is done. -/
def Sourced (names : List String) (c : Records ν) (g : String) : Prop :=
  ∃ n ∈ names, Keeps names c n ∧ (c n).source = g
deriving Decidable

/-- The sets and the records as the culling passes leave them. -/
def culled : Records ν × List String :=
  cullOrphanSources ord names (collectSets ord names (deduped names c)).1
    (collectSets ord names (deduped names c)).2 (deduped names c)

theorem culled_fst : (culled ord names c).1 = settled names c := by
  rw [culled, cullOrphanSources, foldl_cullOrphanSources]
  funext m
  simp only [Enumeration.mem_order, mem_collectSets_fst, mem_collectSets_snd, deduped_sink]
  by_cases hm : m ∈ names
  · by_cases hp : Prevails names c m
    · have hd : deduped names c m = c m := by simp [deduped, hp]
      by_cases hno : (c m).source = noSource
      · -- a device without a source is in no set, and clearing it changes nothing
        have hk : ¬Keeps names c m := fun h => h.1 hno
        have hclear : (c m).cleared = c m := by rw [Device.cleared, ← hno]
        simp [settled, hm, hk, hd, hclear]
      · have hmem : ∃ n ∈ names, (deduped names c n).source ≠ noSource ∧
            (deduped names c n).source = (c m).source := ⟨m, hm, by rw [hd]; exact hno, by rw [hd]⟩
        by_cases hsink : ∃ n ∈ names, (c n).sink = (c m).source
        · simp [settled, Keeps, hm, hp, hd, hno, hsink]
        · simp [settled, Keeps, hm, hp, hd, hno, hsink, hmem]
    · have hd : deduped names c m = (c m).cleared := by simp [deduped, hm, hp]
      have hk : ¬Keeps names c m := fun h => hp h.2.1
      have hclear : (c m).cleared.cleared = (c m).cleared := rfl
      simp [settled, hm, hk, hd, hclear]
  · simp [settled, deduped, hm]

theorem mem_culled_snd {g : String} :
    g ∈ (culled ord names c).2 ↔ Sourced names c g := by
  rw [culled, cullOrphanSources, foldl_cullOrphanSources]
  rw [mem_foldl_erase (fun g => g ∉ (collectSets ord names (deduped names c)).2)
    (nodup_collectSets ord names _).1]
  simp only [Enumeration.mem_order, mem_collectSets_fst, mem_collectSets_snd, deduped_sink,
    not_and, not_not]
  constructor
  · rintro ⟨⟨n, hn, hno, rfl⟩, hsink⟩
    have hs := deduped_source names c hn
    by_cases hp : Prevails names c n
    · rw [if_pos hp] at hs
      rw [hs] at hno hsink ⊢
      exact ⟨n, hn, ⟨hno, hp, hsink ⟨n, hn, by rw [hs]; exact hno, hs⟩⟩, rfl⟩
    · rw [if_neg hp] at hs
      exact absurd hs hno
  · rintro ⟨n, hn, ⟨hno, hp, hsink⟩, rfl⟩
    have hs := deduped_source names c hn
    rw [if_pos hp] at hs
    exact ⟨⟨n, hn, by rw [hs]; exact hno, hs⟩, fun _ => hsink⟩

/-- The groups that need a source, sorted. -/
def openGroups : List String :=
  tableSort sortDescending
    ((names.map fun n => (c n).sink).dedup.filter fun g => ¬Sourced names c g)

theorem groups_eq :
    tableSort sortDescending (ord.listGroups.order (dropSourced ord (culled ord names c).2
      (collectSets ord names (deduped names c)).2)) = openGroups names c := by
  refine tableSort_eq_of_perm strictTotal_sortDescending ((ord.listGroups.perm _).trans ?_)
  have hfold : dropSourced ord (culled ord names c).2
      (collectSets ord names (deduped names c)).2 =
      (ord.dropSourced.order (culled ord names c).2).foldl
        (fun set g => if True then set.erase g else set)
        (collectSets ord names (deduped names c)).2 := by
    simp [dropSourced]
  rw [hfold, perm_ext_iff_of_nodup
    (nodup_foldl_erase (fun _ => True) (nodup_collectSets ord names _).2)
    ((nodup_dedup _).filter _)]
  intro g
  rw [mem_foldl_erase (fun _ => True) (nodup_collectSets ord names _).2]
  simp [mem_collectSets_snd, mem_culled_snd]

/-! ### The sorted devices -/

def keyOf (c : Records ν) (n : String) : DeviceKey ν := { name := n, signal := (c n).signal }

/-- All devices, strongest first. -/
def rankedDevices (names : List String) (c : Records ν) : List (DeviceKey ν) :=
  tableSort sortSignals (names.map (keyOf c))

/-- The devices without a source, strongest first. -/
def freeDevices (names : List String) (c : Records ν) : List (DeviceKey ν) :=
  tableSort sortSignals ((names.filter fun n => ¬Keeps names c n).map (keyOf c))

omit [LinearOrder ν] in
theorem keyOf_injective : Function.Injective (keyOf c) := by
  intro n m h
  exact congrArg DeviceKey.name h

omit [LinearOrder ν] in
theorem buildDeviceSet_eq :
    buildDeviceSet ord names c = (ord.buildDeviceSet.order names).map (keyOf c) := by
  rw [buildDeviceSet, foldl_append_map (fun n => ({ name := n, signal := (c n).signal } :
    DeviceKey ν))]
  rfl

theorem keyOf_settled :
    keyOf (settled names c) = keyOf c := by
  funext n
  simp [keyOf]

theorem devices_eq :
    tableSort sortSignals (ord.listDevices.order
      (buildDeviceSet ord names (settled names c))) = rankedDevices names c := by
  refine tableSort_eq_of_perm strictTotal_sortSignals ((ord.listDevices.perm _).trans ?_)
  rw [buildDeviceSet_eq, keyOf_settled]
  exact (ord.buildDeviceSet.perm names).map _

theorem nonSources_eq {names : List String} (hnames : names.Nodup)
    (c c' : Records ν) (hc' : ∀ n, (c' n).source = (settled names c n).source) :
    tableSort sortSignals (ord.listNonSources.order
      (dropSources ord c' (buildDeviceSet ord names (settled names c)))) =
        freeDevices names c := by
  refine tableSort_eq_of_perm strictTotal_sortSignals ((ord.listNonSources.perm _).trans ?_)
  rw [buildDeviceSet_eq, keyOf_settled, dropSources]
  have hset : ((ord.buildDeviceSet.order names).map (keyOf c)).Nodup :=
    (ord.buildDeviceSet.nodup_order.mpr hnames).map (keyOf_injective c)
  rw [perm_ext_iff_of_nodup
    (nodup_foldl_erase (fun key : DeviceKey ν => (c' key.name).source ≠ noSource) hset)
    ((hnames.filter _).map (keyOf_injective c))]
  intro key
  rw [mem_foldl_erase (fun key : DeviceKey ν => (c' key.name).source ≠ noSource) hset]
  simp only [Enumeration.mem_order, List.mem_map, mem_filter, decide_eq_true_eq]
  constructor
  · rintro ⟨⟨n, hn, rfl⟩, hfree⟩
    refine ⟨n, ⟨hn, fun hk => hfree ⟨⟨n, hn, rfl⟩, ?_⟩⟩, rfl⟩
    rw [hc', show (keyOf c n).name = n from rfl, settled_source names c hn, if_pos hk]
    exact hk.1
  · rintro ⟨n, ⟨hn, hk⟩, rfl⟩
    refine ⟨⟨n, hn, rfl⟩, fun h => h.2 ?_⟩
    rw [hc', show (keyOf c n).name = n from rfl, settled_source names c hn, if_neg hk]

/-! ### Integrations and delta -/

/-- All integrations cleared. -/
def withoutIntegrations (names : List String) (c : Records ν) : Records ν := fun n =>
  if n ∈ names then { c n with integrations := some [] } else c n

/-- The integrations dealt out to the devices in turn. -/
def dealIntegrations (names : List String) (devices : List (DeviceKey ν))
    (integrations : List String) (c : Records ν) : Records ν :=
  if devices.length > 0 then
    integrations.zipIdx.foldl (dealIntegration devices) (withoutIntegrations names c)
  else c

omit [LinearOrder ν] in
theorem foldl_setIntegrations (l : List String) (c : Records ν) :
    l.foldl (fun c n => setIntegrations c n []) c = withoutIntegrations l c := by
  induction l generalizing c with
  | nil =>
    funext m
    simp [withoutIntegrations]
  | cons a l ih =>
    rw [foldl_cons, ih]
    funext m
    by_cases hm : m = a
    · subst hm
      simp [withoutIntegrations, setIntegrations]
    · simp [withoutIntegrations, setIntegrations, hm]

omit [LinearOrder ν] in
theorem assignIntegrations_eq (devices : List (DeviceKey ν)) (integrations : List String)
    (c : Records ν) :
    assignIntegrations ord names devices integrations c =
      dealIntegrations names devices integrations c := by
  have hclear : withoutIntegrations (ord.clearIntegrations.order names) c =
      withoutIntegrations names c := by
    funext m
    simp [withoutIntegrations]
  simp only [assignIntegrations, dealIntegrations, foldl_setIntegrations, hclear]

/-- Dealing out integrations touches no other field. -/
def SameBut (c c' : Records ν) : Prop :=
  ∀ n, (c' n).source = (c n).source ∧ (c' n).sink = (c n).sink

omit [LinearOrder ν] in
theorem sameBut_setIntegrations {c c' : Records ν} (h : SameBut c c') (n : String)
    (is : List String) : SameBut c (setIntegrations c' n is) := by
  intro m
  by_cases hm : m = n
  · subst hm
    simpa [setIntegrations] using h m
  · simpa [setIntegrations, hm] using h m

omit [LinearOrder ν] in
theorem sameBut_dealIntegrations (devices : List (DeviceKey ν))
    (integrations : List String) (c : Records ν) :
    SameBut c (dealIntegrations names devices integrations c) := by
  rw [dealIntegrations]
  split
  · have hstart : SameBut c (withoutIntegrations names c) := by
      intro n
      rw [withoutIntegrations]
      split <;> exact ⟨rfl, rfl⟩
    generalize withoutIntegrations names c = c' at hstart
    induction integrations.zipIdx generalizing c' with
    | nil => exact hstart
    | cons entry entries ih =>
      rw [foldl_cons]
      apply ih
      rw [dealIntegration]
      split
      · exact sameBut_setIntegrations hstart _ _
      · exact hstart
  · exact fun n => ⟨rfl, rfl⟩

omit [LinearOrder ν] in
theorem deltaOf_eq (old new : Records ν) :
    deltaOf ord names old new =
      fun n => if n ∈ names then deltaEntry (old n) (new n) else none := by
  have hfold (l : List String) (d : String → Option DeltaEntry) :
      l.foldl (fun delta n => Function.update delta n (deltaEntry (old n) (new n))) d =
        fun n => if n ∈ l then deltaEntry (old n) (new n) else d n := by
    induction l generalizing d with
    | nil => simp
    | cons a l ih =>
      rw [foldl_cons, ih]
      funext n
      by_cases hn : n = a
      · subst hn
        simp
      · simp [hn]
  rw [deltaOf, hfold]
  simp

/-! ### The whole function -/

/-- The records after the passes that assign the groups without a source. -/
def assigned (integrations : List String) (names : List String) (c : Records ν) :
    Option (Records ν) :=
  let own := assignOwnSinks (freeDevices names c) (openGroups names c)
    (dealIntegrations names (rankedDevices names c) integrations (settled names c))
    (rankedDevices names c)
  assignRemaining own.2.2 (freeDevices names c) own.1

/-- `assign_groups` is a function of the table and of the integrations alone. -/
theorem assignGroups_eq (ord : PairsOrders ν) (integrations : List String) (config : Config ν) :
    assignGroups ord integrations config =
      (assigned integrations config.names config.dev).map fun new =>
        ({ config with dev := new }, fun n =>
          if n ∈ config.names then deltaEntry (config.dev n) (new n) else none) := by
  have hculled := culled_fst ord config.names config.dev
  have hgroups := groups_eq ord config.names config.dev
  simp only [culled] at hculled hgroups
  simp only [assignGroups, removeDuplicateSources_eq, hculled, hgroups, devices_eq,
    assignIntegrations_eq, deltaOf_eq]
  rw [nonSources_eq ord config.nodup config.dev]
  · rfl
  · exact fun n => (sameBut_dealIntegrations _ _ _ _ n).1

end BeepMusic.Grouper
