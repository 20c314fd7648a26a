import BeepMusic.Grouper.Sources

/-!
What `assign_groups` returns: the same result in every order of its loops, and
a proper grouping exactly when the strongest free devices, as many as there
are groups left over, all listen to groups that keep their source.
-/

namespace BeepMusic.Grouper

open Lib List

variable {ν : Type} [LinearOrder ν]

/-- A proper grouping of the devices of `old`: every group with a listener is
the source of exactly one device, every source has a listener, and every
device keeps its sink. -/
def WellGrouped (old new : Config ν) : Prop :=
  (∀ n ∈ new.names,
    new.names.countP (fun m => decide ((new.dev m).source = (new.dev n).sink)) = 1) ∧
  (∀ n ∈ new.names, (new.dev n).source ≠ noSource →
    ∃ m ∈ new.names, (new.dev m).sink = (new.dev n).source) ∧
  new.names = old.names ∧ ∀ n ∈ old.names, (new.dev n).sink = (old.dev n).sink
deriving Decidable

/-- Every free device that listens to a group without a source has enough
stronger free devices in front of it to take all the groups left over. -/
def LeftoversSpareListeners (names : List String) (c : Records ν) : Prop :=
  ∀ n ∈ names, ¬Keeps names c n → ¬Sourced names c (c n).sink →
    (starvedGroups names c).length ≤ strongerFree names c n
deriving Decidable

/-- How a device came by its final source. -/
inductive FinalSource (names : List String) (c new : Records ν) (n : String) : Prop
  | kept (hk : Keeps names c n) (hs : (new n).source = (c n).source)
  | leftover (hk : ¬Keeps names c n)
      (hs : (leftoverGroups names c)[strongerFree names c n]? = some (new n).source)
  | listener (hk : ¬Keeps names c n)
      (hlen : (leftoverGroups names c).length ≤ strongerFree names c n)
      (hopen : (c n).sink ∈ openGroups names c)
      (hfirst : firstListener (freeDevices names c) c (c n).sink = some (keyOf c n))
      (hs : (new n).source = (c n).sink)
  | unassigned (hk : ¬Keeps names c n)
      (hlen : (leftoverGroups names c).length ≤ strongerFree names c n)
      (hnot : ¬((c n).sink ∈ openGroups names c ∧
        firstListener (freeDevices names c) c (c n).sink = some (keyOf c n)))
      (hs : (new n).source = noSource)

section

variable {names : List String} {c new : Records ν}

variable {n : String}

theorem exists_getElem?_free (hn : n ∈ names) (hk : ¬Keeps names c n) :
    ∃ k : ℕ, (freeDevices names c)[k]? = some (keyOf c n) :=
  mem_iff_getElem?.mp (mem_freeDevices.mpr ⟨n, hn, hk, rfl⟩)

theorem getElem?_strongerFree (hnames : names.Nodup) (hn : n ∈ names) (hk : ¬Keeps names c n) :
    (freeDevices names c)[strongerFree names c n]? = some (keyOf c n) := by
  obtain ⟨k, h⟩ := exists_getElem?_free hn hk
  rwa [strongerFree_of_getElem? hnames h]

/-- Two free devices are equally far from the top only if they are the same. -/
theorem strongerFree_injective (hnames : names.Nodup) {m : String} (hn : n ∈ names)
    (hm : m ∈ names) (hkn : ¬Keeps names c n) (hkm : ¬Keeps names c m)
    (h : strongerFree names c n = strongerFree names c m) : n = m := by
  have hget := getElem?_strongerFree hnames hn hkn
  rw [h, getElem?_strongerFree hnames hm hkm] at hget
  exact (keyOf_injective c (Option.some.inj hget)).symm

/-- The first listener of a group is a free device that listens to it, and no
free listener is stronger. -/
theorem exists_firstListener (hnames : names.Nodup) (hn : n ∈ names) (hk : ¬Keeps names c n) :
    ∃ m ∈ names, ¬Keeps names c m ∧ (c m).sink = (c n).sink ∧
      firstListener (freeDevices names c) c (c n).sink = some (keyOf c m) ∧
      strongerFree names c m ≤ strongerFree names c n := by
  cases hfirst : firstListener (freeDevices names c) c (c n).sink with
  | none => exact absurd (firstListener_eq_none.mp hfirst n hn rfl) hk
  | some key =>
    obtain ⟨m, hm, hkm, rfl⟩ := mem_freeDevices.mp (mem_of_find?_eq_some hfirst)
    refine ⟨m, hm, hkm, sink_of_firstListener hfirst, rfl, ?_⟩
    obtain ⟨k, hle, hget⟩ := exists_le_of_find?_eq_some hfirst
      (getElem?_strongerFree hnames hn hk) (by simp [keyOf])
    rwa [strongerFree_of_getElem? hnames hget]

/-- The sources of the result, one device at a time. -/
theorem assigned_finalSource (integrations : List String) (hnames : names.Nodup) :
    ∃ new, assigned integrations names c = some new ∧
      (∀ n, (new n).sink = (c n).sink) ∧ ∀ n ∈ names, FinalSource names c new n := by
  obtain ⟨new, hnew, hsink, hkept, hleftover, hrest⟩ := assigned_spec integrations hnames c
  refine ⟨new, hnew, hsink, ?_⟩
  intro n hn
  by_cases hk : Keeps names c n
  · exact .kept hk (hkept n hn hk)
  · rcases Nat.lt_or_ge (strongerFree names c n) (leftoverGroups names c).length with hlt | hle
    · have hg := getElem?_eq_getElem hlt
      rw [← hleftover _ _ n hg (getElem?_strongerFree hnames hn hk)] at hg
      exact .leftover hk hg
    · have hs := hrest n hn hk hle
      split at hs
      · rename_i hmatch
        exact .listener hk hle hmatch.1 hmatch.2 hs
      · rename_i hmatch
        exact .unassigned hk hle hmatch hs

/-- The device that ends up as the source of a group is determined. -/
theorem finalSource_unique (hnames : names.Nodup) {m : String} (hn : n ∈ names) (hm : m ∈ names)
    (hno : (new n).source ≠ noSource) (heq : (new n).source = (new m).source)
    (hfn : FinalSource names c new n) (hfm : FinalSource names c new m) : n = m := by
  -- a kept source belongs to a sourced group, a group left over has no free
  -- listener, and the group of a first listener has neither: the cases cannot mix
  have hsourced {a b : String} (ha : a ∈ names) (hka : Keeps names c a)
      (hsa : (new a).source = (c a).source) (hb : (new a).source = (new b).source)
      (hnot : ¬Sourced names c (new b).source) : False :=
    hnot ⟨a, ha, hka, by rw [← hsa, hb]⟩
  have hleft {a : String} (ha : (leftoverGroups names c)[strongerFree names c a]? =
      some (new a).source) := mem_leftoverGroups.mp (mem_of_getElem? ha)
  cases hfn with
  | kept hkn hsn =>
    cases hfm with
    | kept hkm hsm =>
      exact hkn.2.1.unique hn hm hkm.2.1 (by rw [← hsn, ← hsm, heq])
    | leftover hkm hsm => exact (hsourced hn hkn hsn heq (hleft hsm).1.2).elim
    | listener hkm hlen hopen hfirst hsm =>
      exact (hsourced hn hkn hsn heq (hsm ▸ (mem_openGroups.mp hopen).2)).elim
    | unassigned hkm hlen hnot hsm => exact absurd (heq.trans hsm) hno
  | leftover hkn hsn =>
    cases hfm with
    | kept hkm hsm => exact (hsourced hm hkm hsm heq.symm (hleft hsn).1.2).elim
    | leftover hkm hsm =>
      rw [heq] at hsn
      have hnodup : (leftoverGroups names c).Nodup := nodup_openGroups.filter _
      obtain ⟨h₁, hget₁⟩ := List.getElem?_eq_some_iff.mp hsn
      obtain ⟨h₂, hget₂⟩ := List.getElem?_eq_some_iff.mp hsm
      exact strongerFree_injective hnames hn hm hkn hkm
        ((hnodup.getElem_inj_iff).mp (hget₁.trans hget₂.symm))
    | listener hkm hlen hopen hfirst hsm =>
      exact absurd ((hleft hsn).2 m hm (by rw [heq, hsm])) hkm
    | unassigned hkm hlen hnot hsm => exact absurd (heq.trans hsm) hno
  | listener hkn hlen hopen hfirst hsn =>
    cases hfm with
    | kept hkm hsm =>
      exact (hsourced hm hkm hsm heq.symm (hsn ▸ (mem_openGroups.mp hopen).2)).elim
    | leftover hkm hsm => exact absurd ((hleft hsm).2 n hn (by rw [← heq, hsn])) hkn
    | listener hkm hlen' hopen' hfirst' hsm =>
      have hsink : (c n).sink = (c m).sink := by rw [← hsn, ← hsm, heq]
      rw [hsink, hfirst'] at hfirst
      exact (keyOf_injective c (Option.some.inj hfirst)).symm
    | unassigned hkm hlen hnot hsm => exact absurd (heq.trans hsm) hno
  | unassigned hkn hlen hnot hsn => exact absurd hsn hno

theorem finalSource_sink (hn : n ∈ names) (hno : (new n).source ≠ noSource)
    (hf : FinalSource names c new n) : ∃ m ∈ names, (c m).sink = (new n).source := by
  cases hf with
  | kept hk hs => exact hs ▸ hk.2.2
  | leftover hk hs => exact (mem_leftoverGroups.mp (mem_of_getElem? hs)).1.1
  | listener hk hlen hopen hfirst hs => exact ⟨n, hn, hs.symm⟩
  | unassigned hk hlen hnot hs => exact absurd hs hno

/-- When the groups left over spare the listeners, every group has a source. -/
theorem exists_source (hnames : names.Nodup) (hspare : LeftoversSpareListeners names c)
    (hf : ∀ n ∈ names, FinalSource names c new n) (hn : n ∈ names) :
    ∃ m ∈ names, (new m).source = (c n).sink := by
  by_cases hs : Sourced names c (c n).sink
  · obtain ⟨m, hm, hkm, hsource⟩ := hs
    cases hf m hm with
    | kept _ h => exact ⟨m, hm, h.trans hsource⟩
    | leftover hk _ | listener hk _ _ _ _ | unassigned hk _ _ _ => exact absurd hkm hk
  · by_cases hlisten : ∀ m ∈ names, (c m).sink = (c n).sink → Keeps names c m
    · -- the group is left over: it goes to the free device at its own position
      have hmem := mem_leftoverGroups.mpr ⟨⟨⟨n, hn, rfl⟩, hs⟩, hlisten⟩
      obtain ⟨k, hk, hget⟩ := getElem_of_mem hmem
      have hlt := hk.trans_le (length_leftoverGroups_le hnames)
      obtain ⟨m, hm, hkm, hkey⟩ := mem_freeDevices.mp (getElem_mem hlt)
      have hpos : strongerFree names c m = k :=
        strongerFree_of_getElem? hnames (by rw [getElem?_eq_getElem hlt, hkey])
      cases hf m hm with
      | kept hk' _ => exact absurd hk' hkm
      | leftover _ h =>
        rw [hpos, getElem?_eq_getElem hk, Option.some.injEq] at h
        exact ⟨m, hm, by rw [← h, hget]⟩
      | listener _ hlen _ _ _ => omega
      | unassigned _ hlen _ _ => omega
    · -- the group has a free listener, and the first one is spared
      push Not at hlisten
      obtain ⟨a, ha, hasink, hka⟩ := hlisten
      obtain ⟨m, hm, hkm, hmsink, hfirst, _⟩ := exists_firstListener hnames ha hka
      rw [hasink] at hmsink hfirst
      have hopen : (c m).sink ∈ openGroups names c :=
        mem_openGroups.mpr ⟨⟨m, hm, rfl⟩, by rwa [hmsink]⟩
      have hlen := hspare m hm hkm (mem_openGroups.mp hopen).2
      rw [← length_leftoverGroups] at hlen
      cases hf m hm with
      | kept hk' _ => exact absurd hk' hkm
      | leftover _ h =>
        obtain ⟨hlt, _⟩ := List.getElem?_eq_some_iff.mp h
        omega
      | listener _ _ _ _ h => exact ⟨m, hm, h.trans hmsink⟩
      | unassigned _ _ hnot _ => exact absurd ⟨hopen, by rw [hmsink]; exact hfirst⟩ hnot

/-- When a group left over goes to the first listener of another group, that
group has no source. -/
theorem not_exists_source (hnames : names.Nodup) (hf : ∀ n ∈ names, FinalSource names c new n)
    (hn : n ∈ names) (hsink : (c n).sink ≠ noSource) (hk : ¬Keeps names c n)
    (hs : ¬Sourced names c (c n).sink)
    (hlt : strongerFree names c n < (starvedGroups names c).length) :
    ∀ m ∈ names, (new m).source ≠ (c n).sink := by
  intro m hm hsource
  rw [← length_leftoverGroups] at hlt
  cases hf m hm with
  | kept hkm h => exact hs ⟨m, hm, hkm, by rw [← h, hsource]⟩
  | leftover hkm h =>
    rw [hsource] at h
    exact hk ((mem_leftoverGroups.mp (mem_of_getElem? h)).2 n hn rfl)
  | listener hkm hlen _ hfirst h =>
    -- the first listener is at least as strong as `n`, so it is not spared
    obtain ⟨a, _, _, _, hfirst', hle⟩ := exists_firstListener hnames hn hk
    rw [← hsource, h, hfirst] at hfirst'
    have hma : m = a := keyOf_injective c (Option.some.inj hfirst')
    subst hma
    omega
  | unassigned _ _ _ h => exact hsink (hsource ▸ h)

end

/-- `assign_groups` returns the same result in every order of its loops: all
devices that evaluate it on one table agree on every source, sink and list of
integrations. -/
theorem assignGroups_order_independent (integrations : List String) (config : Config ν) :
    ∃ result, ∀ ord : PairsOrders ν, assignGroups ord integrations config = some result := by
  obtain ⟨new, hnew, _⟩ := assigned_finalSource (c := config.dev) integrations config.nodup
  exact ⟨_, fun ord => by rw [assignGroups_eq, hnew, Option.map_some]⟩

/-- The result is a proper grouping if and only if the groups left over spare
the first listeners of the other groups. -/
theorem assignGroups_wellGrouped_iff (ord : PairsOrders ν) (integrations : List String)
    (config : Config ν) (hsink : ∀ n ∈ config.names, (config.dev n).sink ≠ noSource) :
    (∃ new delta, assignGroups ord integrations config = some (new, delta) ∧
        WellGrouped config new) ↔
      LeftoversSpareListeners config.names config.dev := by
  obtain ⟨new, hnew, hnsink, hf⟩ :=
    assigned_finalSource (c := config.dev) integrations config.nodup
  have hresult := assignGroups_eq ord integrations config
  rw [hnew, Option.map_some] at hresult
  constructor
  · rintro ⟨new', delta, heq, hone, -⟩ n hn hk hs
    rw [hresult, Option.some.injEq, Prod.mk.injEq] at heq
    rw [← heq.1] at hone
    by_contra hlt
    have hnone := not_exists_source config.nodup hf hn (hsink n hn) hk hs (by omega)
    have hcount := hone n hn
    rw [countP_eq_zero.mpr] at hcount
    · exact absurd hcount (by omega)
    · intro m hm
      simpa [hnsink] using hnone m hm
  · intro hspare
    refine ⟨_, _, hresult, ?_, ?_, rfl, fun n _ => hnsink n⟩
    · intro n hn
      rw [countP_eq_one_iff config.nodup]
      simp only [decide_eq_true_eq, hnsink]
      refine ⟨exists_source config.nodup hspare hf hn, ?_⟩
      intro m hm m' hm' hsm hsm'
      exact finalSource_unique config.nodup hm hm' (hsm ▸ hsink n hn) (hsm.trans hsm'.symm)
        (hf m hm) (hf m' hm')
    · intro n hn hno
      simpa only [hnsink] using finalSource_sink hn hno (hf n hn)

/-- Every loop in the order in which the table is listed. -/
def PairsOrders.asListed : PairsOrders ν where
  dedupeOuter := .inOrder
  dedupeInner _ := .inOrder
  collectSets := .inOrder
  cullSources := .inOrder
  cullDevices _ := .inOrder
  dropSourced := .inOrder
  listGroups := .inOrder
  buildDeviceSet := .inOrder
  listDevices := .inOrder
  clearIntegrations := .inOrder
  dropSources := .inOrder
  listNonSources := .inOrder
  delta := .inOrder

/-- Three devices. `devA` listens to group 3 and is the source of group 1;
`devB` and `devC` are free and listen to the groups 1 and 2. -/
def threeDevices (signalB signalC : ℤ) : Config ℤ where
  names := ["devA", "devB", "devC"]
  nodup := by decide
  dev n :=
    if n = "devA" then ⟨"1", "3", -50, 1000, none⟩
    else if n = "devB" then ⟨noSource, "1", signalB, 0, none⟩
    else ⟨noSource, "2", signalC, 0, none⟩

/-- With `devB` in front, it takes group 3 and `devC` keeps group 2. -/
theorem assignGroups_wellGrouped_threeDevices :
    (∀ n ∈ (threeDevices (-40) (-60)).names,
        ((threeDevices (-40) (-60)).dev n).sink ≠ noSource) ∧
      ((∃ new delta, assignGroups .asListed ["spotify"] (threeDevices (-40) (-60)) =
          some (new, delta) ∧ WellGrouped (threeDevices (-40) (-60)) new) ↔
        LeftoversSpareListeners (threeDevices (-40) (-60)).names
          (threeDevices (-40) (-60)).dev) :=
  ⟨by decide, assignGroups_wellGrouped_iff .asListed ["spotify"] (threeDevices (-40) (-60))
    (by decide)⟩

/-- With `devC` in front, group 3 overwrites its group 2, which is left without
a source. -/
theorem assignGroups_overwrites_listener :
    (∀ n ∈ (threeDevices (-60) (-40)).names,
        ((threeDevices (-60) (-40)).dev n).sink ≠ noSource) ∧
      ¬∃ new delta, assignGroups .asListed ["spotify"] (threeDevices (-60) (-40)) =
        some (new, delta) ∧ WellGrouped (threeDevices (-60) (-40)) new := by
  refine ⟨by decide, ?_⟩
  rintro ⟨new, delta, heq, hwell⟩
  have hbad : (assignGroups .asListed ["spotify"] (threeDevices (-60) (-40))).all
      (fun result => !decide (WellGrouped (threeDevices (-60) (-40)) result.1)) = true := by
    decide
  rw [heq] at hbad
  simp [hwell] at hbad

end BeepMusic.Grouper
