import BeepMusic.Grouper.Integrations

/-!
Which devices `assign_groups` leaves as they are. Their `delta` is not the least one: every
device gets a new list of integrations, and lists are compared by reference, so every device has
an entry. And the grouping settles: a proper grouping that `assign_groups` has made is not
changed when it is evaluated again.
-/

namespace BeepMusic.Grouper

open Lib List

variable {ν : Type} [LinearOrder ν] {old new : Config ν} {n : String}

/-! ### The delta -/

section Delta

variable {names : List String} {c : Records ν}

/-- The group that is given to a device which does not keep its source: one that is left over, or
its own. -/
def granted (names : List String) (c : Records ν) (n : String) : Option String :=
  (leftoverGroups names c)[strongerFree names c n]?.or
    (if (c n).sink ∈ openGroups names c ∧
        firstListener (freeDevices names c) c (c n).sink = some (keyOf c n) then some (c n).sink
      else none)

/-- The device keeps its source, or it has none and is given none; and it has the integrations of
its place in the order of the signals. -/
def Stays (integrations names : List String) (c : Records ν) (n : String) : Prop :=
  (Keeps names c n ∨
    (c n).source = noSource ∧ (granted names c n).getD noSource = noSource) ∧
  (c n).integrations = some
    (hand names.length (((rankedDevices names c).map DeviceKey.name).idxOf n) integrations)

/-- A group that is given away has a listener and no source. -/
theorem mem_openGroups_of_granted {g : String} (h : granted names c n = some g) :
    g ∈ openGroups names c := by
  rcases Option.or_eq_some_iff.mp h with hleft | ⟨-, hown⟩
  · exact mem_openGroups.mpr (mem_leftoverGroups.mp (mem_of_getElem? hleft)).1
  · obtain ⟨hopen, hsink⟩ := Option.ite_some_none_eq_some.mp hown
    exact hsink ▸ hopen.1

theorem FinalSource.source_eq {new : Records ν} (hf : FinalSource names c new n)
    (hk : ¬Keeps names c n) : (new n).source = (granted names c n).getD noSource := by
  cases hf with
  | kept hkeeps _ => exact absurd hkeeps hk
  | leftover _ hs => rw [granted, hs, Option.some_or, Option.getD_some]
  | listener _ hlen hopen hfirst hs =>
    rw [granted, getElem?_eq_none hlen, Option.none_or, if_pos ⟨hopen, hfirst⟩, hs,
      Option.getD_some]
  | unassigned _ hlen hnot hs =>
    rw [granted, getElem?_eq_none hlen, Option.none_or, if_neg hnot, hs, Option.getD_none]

/-- A device is not given the group that it has claimed in vain: somebody keeps that one. -/
theorem FinalSource.source_eq_iff {new : Records ν} (hf : FinalSource names c new n)
    (hn : n ∈ names) : (new n).source = (c n).source ↔ Keeps names c n ∨
      (c n).source = noSource ∧ (granted names c n).getD noSource = noSource := by
  by_cases hk : Keeps names c n
  · cases hf with
    | kept _ hs => simp [hk, hs]
    | leftover hnot _ | listener hnot _ _ _ _ | unassigned hnot _ _ _ => exact absurd hk hnot
  · rw [hf.source_eq hk, or_iff_right hk]
    refine ⟨fun heq => ?_, fun ⟨hno, hgrant⟩ => hgrant.trans hno.symm⟩
    suffices hno : (c n).source = noSource from ⟨hno, heq.trans hno⟩
    cases hg : granted names c n with
    | none => simpa [hg] using heq.symm
    | some g =>
      rw [hg, Option.getD_some] at heq
      subst heq
      obtain ⟨hlistener, hnot⟩ := mem_openGroups.mp (mem_openGroups_of_granted hg)
      obtain ⟨w, hw, hsource, hprevails⟩ := exists_prevails (c := c) hn
      by_contra hno
      exact hnot ⟨w, hw, ⟨hsource ▸ hno, hprevails, hsource ▸ hlistener⟩, hsource⟩

/-- What `assign_groups` changes, from the table it is given. -/
theorem differs_iff_not_stays {integrations : List String} (hnames : names.Nodup)
    {new : Records ν} (hnew : assigned integrations names c = some new)
    (hsink : (new n).sink = (c n).sink) (hf : FinalSource names c new n) (hn : n ∈ names) :
    Differs (c n) (new n) ↔ ¬Stays integrations names c n := by
  have hrank := getElem?_idxOf ((rankedDevices_perm names c).mem_iff.mpr hn)
  rw [Stays, ← hf.source_eq_iff hn, ← assigned_integrations hnames hnew hrank, Differs, hsink,
    not_and_or, eq_comm (a := (new n).source)]
  simp

end Delta

/-- Written over the old table, the delta gives the new one. Its entries are
those of the devices that differ exactly when no device stays as it is. -/
theorem delta_of_assignGroups (ord : PairsOrders ν) (integrations : List String)
    (config : Config ν) :
    ∃ new delta, assignGroups ord integrations config = some (new, delta) ∧
      new.names = config.names ∧
      (∀ n ∈ config.names, (config.dev n).overwrite (delta n) = new.dev n) ∧
      ((∀ n ∈ config.names, (delta n).isSome = true ↔ Differs (config.dev n) (new.dev n)) ↔
        ∀ n ∈ config.names, ¬Stays integrations config.names config.dev n) := by
  obtain ⟨new, hnew, hsink, hf⟩ :=
    assigned_finalSource (c := config.dev) integrations config.nodup
  refine ⟨{ config with dev := new }, fun n =>
    if n ∈ config.names then deltaEntry (config.dev n) (new n) else none,
    by rw [assignGroups_eq, hnew, Option.map_some], rfl, fun n hn => ?_, ?_⟩
  · obtain ⟨hstatus, hlist⟩ := assigned_listed hnew hn
    simp only [if_pos hn]
    exact overwrite_deltaEntry hstatus hlist
  · have hentry : ∀ n ∈ config.names,
        (if n ∈ config.names then deltaEntry (config.dev n) (new n) else none).isSome = true := by
      intro n hn
      rw [if_pos hn]
      exact deltaEntry_isSome (assigned_listed hnew hn).2
    refine forall₂_congr fun n hn => ?_
    rw [← differs_iff_not_stays config.nodup hnew (hsink n) (hf n hn) hn]
    exact iff_true_left (hentry n hn)

/-- One device that is already as `assign_groups` would have it. -/
def oneDevice : Config ℤ where
  names := ["devA"]
  nodup := by decide
  dev _ := ⟨"1", "1", -50, 1000, some ["spotify"]⟩

/-- Nothing changes, and the device still has an entry. -/
theorem delta_of_unchanged_device :
    ∃ new delta, assignGroups .asListed ["spotify"] oneDevice = some (new, delta) ∧
      (∀ n ∈ oneDevice.names, new.dev n = oneDevice.dev n) ∧
      ¬∀ n ∈ oneDevice.names,
        ((delta n).isSome = true ↔ Differs (oneDevice.dev n) (new.dev n)) := by
  obtain ⟨result, hresult⟩ : ∃ result ∈ assignGroups .asListed ["spotify"] oneDevice,
      (∀ n ∈ oneDevice.names, result.1.dev n = oneDevice.dev n) ∧
        ¬∀ n ∈ oneDevice.names, ((result.2 n).isSome = true ↔
          Differs (oneDevice.dev n) (result.1.dev n)) := by
    decide +kernel
  exact ⟨result.1, result.2, hresult⟩

/-! ### A second evaluation -/

/-- In a proper grouping nobody contests a source. -/
theorem WellGrouped.keeps (h : WellGrouped old new) (hn : n ∈ new.names)
    (hno : (new.dev n).source ≠ noSource) : Keeps new.names new.dev n := by
  obtain ⟨m, hm, hsink⟩ := h.2.1 n hn hno
  refine ⟨hno, fun a ha hne heq => absurd ?_ hne, m, hm, hsink⟩
  obtain ⟨-, hunique⟩ := (countP_eq_one_iff new.nodup _).mp (h.1 m hm)
  exact hunique a ha n hn (by simp [heq, hsink]) (by simp [hsink])

/-- In a proper grouping no group waits for a source, so all sources stay. -/
theorem WellGrouped.source_eq (h : WellGrouped old new)
    (hsink : ∀ n ∈ new.names, (new.dev n).sink ≠ noSource) (hn : n ∈ new.names)
    {again : Records ν} (hf : FinalSource new.names new.dev again n) :
    (again n).source = (new.dev n).source := by
  have hnone : ∀ g, g ∉ openGroups new.names new.dev := by
    intro g hg
    obtain ⟨⟨m, hm, rfl⟩, hnot⟩ := mem_openGroups.mp hg
    obtain ⟨⟨a, ha, hsource⟩, -⟩ := (countP_eq_one_iff new.nodup _).mp (h.1 m hm)
    have hsource := of_decide_eq_true hsource
    exact hnot ⟨a, ha, h.keeps ha (hsource ▸ hsink m hm), hsource⟩
  cases hf with
  | kept _ hs => exact hs
  | leftover _ hs =>
    exact absurd (mem_openGroups.mpr (mem_leftoverGroups.mp (mem_of_getElem? hs)).1) (hnone _)
  | listener _ _ hopen => exact absurd hopen (hnone _)
  | unassigned hk _ _ hs => exact hs.trans (of_not_not fun hno => hk (h.keeps hn (Ne.symm hno)))

theorem rankedDevices_congr {names : List String} {c c' : Records ν}
    (h : ∀ n ∈ names, (c' n).signal = (c n).signal) :
    rankedDevices names c' = rankedDevices names c := by
  unfold rankedDevices
  rw [map_congr_left fun n hn => by rw [keyOf, h n hn, ← keyOf]]

/-- Evaluated again, by whichever device and in whichever order, `assign_groups` gives the
same table. -/
theorem assignGroups_settles (ord ord' : PairsOrders ν) (integrations : List String)
    (config new : Config ν) (delta : String → Option DeltaEntry)
    (hsink : ∀ n ∈ config.names, (config.dev n).sink ≠ noSource)
    (h : assignGroups ord integrations config = some (new, delta))
    (hwell : WellGrouped config new) :
    ∃ again delta', assignGroups ord' integrations new = some (again, delta') ∧
      again.names = new.names ∧ ∀ n ∈ new.names, again.dev n = new.dev n := by
  obtain ⟨again, hagain, hsinks, hf⟩ :=
    assigned_finalSource (c := new.dev) integrations new.nodup
  refine ⟨{ new with dev := again }, _, by rw [assignGroups_eq, hagain]; rfl, rfl,
    fun n hn => ?_⟩
  rw [assignGroups_eq, Option.map_eq_some_iff] at h
  obtain ⟨dev, hdev, heq⟩ := h
  obtain ⟨rfl, -⟩ := Prod.mk.inj heq
  have hsource := hwell.source_eq (fun m hm => (hwell.2.2.2 m hm) ▸ hsink m hm) hn (hf n hn)
  obtain ⟨hsignal, htime⟩ := (assigned_listed hagain hn).1
  obtain ⟨k, hk⟩ := mem_iff_getElem?.mp ((rankedDevices_perm config.names dev).mem_iff.mpr hn)
  have hintegrations : (again n).integrations = (dev n).integrations := by
    rw [assigned_integrations config.nodup hagain hk]
    rw [rankedDevices_congr fun m hm => (assigned_listed hdev hm).1.1.symm] at hk
    exact (assigned_integrations config.nodup hdev hk).symm
  have hsinks := hsinks n
  show again n = dev n
  cases hd : dev n
  cases ha : again n
  simp_all

theorem assignGroups_settles_threeDevices :
    ∃ new delta, assignGroups .asListed ["spotify"] (threeDevices (-40) (-60)) =
        some (new, delta) ∧
      ∃ again delta', assignGroups .asListed ["spotify"] new = some (again, delta') ∧
        again.names = new.names ∧ ∀ n ∈ new.names, again.dev n = new.dev n := by
  have hproper : (assignGroups .asListed ["spotify"] (threeDevices (-40) (-60))).any
      (fun result => decide (WellGrouped (threeDevices (-40) (-60)) result.1)) = true := by decide
  obtain ⟨⟨new, delta⟩, h, hwell⟩ := (Option.any_eq_true _ _).mp hproper
  exact ⟨new, delta, h, assignGroups_settles .asListed .asListed ["spotify"] _ new delta
    (by decide) h (of_decide_eq_true hwell)⟩

end BeepMusic.Grouper
