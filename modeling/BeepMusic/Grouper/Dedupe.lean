import BeepMusic.Grouper.Assign
import Mathlib.Data.Prod.Lex
import Mathlib.Data.Finset.Max

/-!
The pass that removes duplicate sources. It compares pairs of devices while it
changes the sources it compares, so its effect is not that of its iterations
one by one. What holds between any two iterations is that a device has lost
its source only to a device that beats it; the device that beats all claimants
of a source therefore keeps it, and the iteration that compares it with any
other claimant takes the source from that one.
-/

namespace BeepMusic.Grouper

open Lib List

variable {ν : Type} [LinearOrder ν]

/-- The record with its source given up. -/
def Device.cleared (d : Device ν) : Device ν := { d with source := noSource }

omit [LinearOrder ν] in
@[simp] theorem setSource_self (c : Records ν) (n g : String) :
    setSource c n g n = { c n with source := g } := by
  simp [setSource]

variable {n m i j : String} {c s : Records ν} {names : List String}

omit [LinearOrder ν] in
theorem setSource_of_ne (c : Records ν) (g : String) (h : m ≠ n) : setSource c n g m = c m := by
  simp [setSource, h]

/-- Of two claimants of one source, `n` keeps it and `m` gives it up. -/
def Beats (c : Records ν) (n m : String) : Prop :=
  (c n).sourceTime < (c m).sourceTime ∨ ((c n).sourceTime = (c m).sourceTime ∧ m < n)
deriving Decidable

/-- Smaller is better: the earlier time, and on equal times the greater name. -/
def rank (c : Records ν) (n : String) : Lex (ν × Stringᵒᵈ) :=
  toLex ((c n).sourceTime, OrderDual.toDual n)

theorem beats_iff_rank_lt : Beats c n m ↔ rank c n < rank c m := by
  simp [Beats, rank, Prod.Lex.toLex_lt_toLex]

theorem Beats.asymm (h : Beats c n m) : ¬Beats c m n := by
  rw [beats_iff_rank_lt] at h ⊢
  exact h.not_gt

theorem beats_of_not_beats (hne : n ≠ m) (h : ¬Beats c n m) : Beats c m n := by
  rw [beats_iff_rank_lt, not_lt] at h
  rw [beats_iff_rank_lt]
  refine lt_of_le_of_ne h fun heq => hne ?_
  have hnames := congrArg (fun p : Lex (ν × Stringᵒᵈ) => OrderDual.ofDual (ofLex p).2) heq
  simpa [rank] using hnames.symm

/-- The claim of `n` to its source prevails over all others. -/
def Prevails (names : List String) (c : Records ν) (n : String) : Prop :=
  ∀ m ∈ names, m ≠ n → (c m).source = (c n).source → Beats c n m
deriving Decidable

/-- Two devices whose claims to one source both prevail are the same device. -/
theorem Prevails.unique (hn : n ∈ names) (hm : m ∈ names) (hpn : Prevails names c n)
    (hpm : Prevails names c m) (hsource : (c n).source = (c m).source) : n = m := by
  by_contra hne
  exact (hpn m hm (Ne.symm hne) hsource.symm).asymm (hpm n hn hne hsource)

/-- Among the claimants of a source there is one whose claim prevails. -/
theorem exists_prevails (hn : n ∈ names) :
    ∃ w ∈ names, (c w).source = (c n).source ∧ Prevails names c w := by
  let claimants := (names.filter fun m => (c m).source = (c n).source).toFinset
  have hne : claimants.Nonempty := ⟨n, by simp [claimants, hn]⟩
  obtain ⟨w, hw, hmin⟩ := Finset.exists_min_image claimants (rank c) hne
  have hw' : w ∈ names ∧ (c w).source = (c n).source := by simpa [claimants] using hw
  refine ⟨w, hw'.1, hw'.2, ?_⟩
  intro m hm hmw hsource
  by_contra hbeats
  have hlt := beats_iff_rank_lt.mp (beats_of_not_beats (Ne.symm hmw) hbeats)
  have hmem : m ∈ claimants := by simp [claimants, hm, hsource, hw'.2]
  exact absurd hlt (not_lt.mpr (hmin m hmem))

/-! ### One comparison -/

/-- Between any two comparisons, the table `s` differs from the original `c`
only by the sources of devices whose claim does not prevail. -/
def Partial (names : List String) (c s : Records ν) : Prop :=
  ∀ n, s n = c n ∨ (n ∈ names ∧ ¬Prevails names c n ∧ s n = (c n).cleared)

/-- The loser of the comparison of `i` and `j`. -/
def loser (c : Records ν) (i j : String) : String := if Beats c i j then j else i

/-- In a partial table a comparison either changes nothing or clears the loser. -/
theorem dedupePair_cases (hs : Partial names c s) (hij : i ≠ j) :
    (dedupePair s i j = s ∧ ((s i).source ≠ (s j).source ∨ (s i).source = noSource)) ∨
      (s i = c i ∧ s j = c j ∧ (c i).source = (c j).source ∧
        dedupePair s i j = setSource s (loser c i j) noSource) := by
  by_cases heq : (s i).source = (s j).source
  · by_cases hno : (s i).source = noSource
    · -- both sources are already given up: clearing one again changes nothing
      left
      have hclear (n : String) (hn : (s n).source = noSource) : setSource s n noSource = s := by
        funext m
        by_cases hm : m = n
        · subst hm
          rw [setSource_self, ← hn]
        · exact setSource_of_ne s _ hm
      refine ⟨?_, .inr hno⟩
      rw [dedupePair, if_pos hij, if_pos heq]
      split_ifs <;> first | exact hclear i hno | exact hclear j (heq ▸ hno)
    · right
      have hkeep (n : String) (hn : (s n).source ≠ noSource) : s n = c n := by
        rcases hs n with h | ⟨_, _, h⟩
        · exact h
        · exact absurd (by rw [h]; rfl) hn
      have hi := hkeep i hno
      have hj := hkeep j (heq ▸ hno)
      refine ⟨hi, hj, by rw [← hi, ← hj, heq], ?_⟩
      rw [dedupePair, if_pos hij, if_pos heq, hi, hj, loser]
      rcases lt_trichotomy (c i).sourceTime (c j).sourceTime with hlt | hsame | hgt
      · rw [if_neg hlt.not_gt, if_pos hlt, if_pos (.inl hlt)]
      · have hnlt : ¬(c i).sourceTime < (c j).sourceTime := hsame.not_lt
        rw [if_neg hsame.not_gt, if_neg hnlt]
        by_cases hname : i > j
        · rw [if_pos hname, if_pos (.inr ⟨hsame, hname⟩)]
        · rw [if_neg hname, if_neg]
          rintro (h | ⟨_, h⟩)
          · exact hnlt h
          · exact hname h
      · rw [if_pos hgt, if_neg]
        rintro (h | ⟨h, _⟩)
        · exact h.not_gt hgt
        · exact hgt.ne' h
  · left
    exact ⟨by rw [dedupePair, if_pos hij, if_neg heq], .inl heq⟩

theorem not_prevails_loser (hi : i ∈ names) (hj : j ∈ names) (hij : i ≠ j)
    (hsource : (c i).source = (c j).source) : ¬Prevails names c (loser c i j) := by
  intro h
  by_cases hbeats : Beats c i j
  · rw [loser, if_pos hbeats] at h
    exact hbeats.asymm (h i hi hij hsource)
  · rw [loser, if_neg hbeats] at h
    exact hbeats (h j hj (Ne.symm hij) hsource.symm)

theorem partial_dedupePair (hs : Partial names c s) (hi : i ∈ names) (hj : j ∈ names) :
    Partial names c (dedupePair s i j) := by
  by_cases hij : i = j
  · rw [dedupePair, if_neg (not_not.mpr hij)]
    exact hs
  · rcases dedupePair_cases hs hij with ⟨h, _⟩ | ⟨hsi, hsj, hsource, h⟩
    · rw [h]
      exact hs
    · rw [h]
      intro n
      by_cases hn : n = loser c i j
      · right
        have hmem : loser c i j ∈ names := by
          rw [loser]
          split_ifs <;> assumption
        have hold : s (loser c i j) = c (loser c i j) := by
          rw [loser]
          split_ifs <;> assumption
        subst hn
        refine ⟨hmem, not_prevails_loser hi hj hij hsource, ?_⟩
        rw [setSource_self, hold]
        rfl
      · rw [setSource_of_ne s _ hn]
        exact hs n

/-- A source that has been given up is not taken back. -/
theorem dedupePair_cleared (hs : Partial names c s) (hn : s n = (c n).cleared) :
    dedupePair s i j n = (c n).cleared := by
  by_cases hij : i = j
  · rw [dedupePair, if_neg (not_not.mpr hij), hn]
  · rcases dedupePair_cases hs hij with ⟨h, _⟩ | ⟨_, _, _, h⟩
    · rw [h, hn]
    · rw [h]
      by_cases hnl : n = loser c i j
      · subst hnl
        rw [setSource_self, hn]
        rfl
      · rw [setSource_of_ne s _ hnl, hn]

/-- A comparison with the prevailing claimant takes the source away. -/
theorem dedupePair_settles (hs : Partial names c s) {w : String} (hn : n ∈ names) (hnw : n ≠ w)
    (hsource : (c n).source = (c w).source) (hprev : Prevails names c w) :
    dedupePair s n w n = (c n).cleared := by
  have hsw : s w = c w := by
    rcases hs w with h | ⟨_, h, _⟩
    · exact h
    · exact absurd hprev h
  rcases hs n with hsn | ⟨_, _, hsn⟩
  · rcases dedupePair_cases hs hnw with ⟨h, hno | hno⟩ | ⟨_, _, _, h⟩
    · exact absurd (by rw [hsn, hsw, hsource]) hno
    · -- the common source is `noSource`, so the record is cleared as it stands
      rw [h, hsn, Device.cleared, ← hno, hsn]
    · have hl : loser c n w = n := if_neg (hprev n hn hnw hsource).asymm
      rw [h, hl, setSource_self, hsn]
      rfl
  · exact dedupePair_cleared hs hsn

/-! ### The whole pass -/

/-- The table after the pass: whoever does not prevail has given up its source. -/
def deduped (names : List String) (c : Records ν) : Records ν := fun n =>
  if n ∈ names ∧ ¬Prevails names c n then (c n).cleared else c n

theorem partial_foldl (hs : Partial names c s) (pairs : List (String × String))
    (hpairs : ∀ p ∈ pairs, p.1 ∈ names ∧ p.2 ∈ names) :
    Partial names c (pairs.foldl (fun s p => dedupePair s p.1 p.2) s) := by
  induction pairs generalizing s with
  | nil => exact hs
  | cons p pairs ih =>
    have hp := hpairs p (mem_cons_self ..)
    exact ih (partial_dedupePair hs hp.1 hp.2) fun q hq =>
      hpairs q (mem_cons_of_mem _ hq)

theorem foldl_cleared (hs : Partial names c s) (hn : s n = (c n).cleared)
    (pairs : List (String × String)) (hpairs : ∀ p ∈ pairs, p.1 ∈ names ∧ p.2 ∈ names) :
    pairs.foldl (fun s p => dedupePair s p.1 p.2) s n = (c n).cleared := by
  induction pairs generalizing s with
  | nil => exact hn
  | cons p pairs ih =>
    have hp := hpairs p (mem_cons_self ..)
    exact ih (partial_dedupePair hs hp.1 hp.2) (dedupePair_cleared hs hn) fun q hq =>
      hpairs q (mem_cons_of_mem _ hq)

/-- A loop that compares `n` with the prevailing claimant of its source at
least once takes the source from `n`. -/
theorem foldl_settles (hs : Partial names c s) {w : String} (hn : n ∈ names) (hw : w ∈ names)
    (hnw : n ≠ w) (hsource : (c n).source = (c w).source) (hprev : Prevails names c w)
    (pairs : List (String × String)) (hpairs : ∀ p ∈ pairs, p.1 ∈ names ∧ p.2 ∈ names)
    (hmem : (n, w) ∈ pairs) :
    pairs.foldl (fun s p => dedupePair s p.1 p.2) s n = (c n).cleared := by
  induction pairs generalizing s with
  | nil => simp at hmem
  | cons p pairs ih =>
    have hp := hpairs p (mem_cons_self ..)
    have hrest : ∀ q ∈ pairs, q.1 ∈ names ∧ q.2 ∈ names := fun q hq =>
      hpairs q (mem_cons_of_mem _ hq)
    rcases mem_cons.mp hmem with rfl | hmem
    · have hclear : dedupePair s n w n = (c n).cleared :=
        dedupePair_settles hs hn hnw hsource hprev
      exact foldl_cleared (partial_dedupePair hs hn hw) hclear pairs hrest
    · exact ih (partial_dedupePair hs hp.1 hp.2) hrest hmem

/-- Whatever the order of its loops, the pass leaves every source with exactly
the claimant that prevails. -/
theorem removeDuplicateSources_eq (ord : PairsOrders ν) (names : List String)
    (c : Records ν) : removeDuplicateSources ord names c = deduped names c := by
  let pairs := (ord.dedupeOuter.order names).flatMap fun i =>
    ((ord.dedupeInner i).order names).map fun j => (i, j)
  have hfold : removeDuplicateSources ord names c =
      pairs.foldl (fun s p => dedupePair s p.1 p.2) c := by
    simp only [removeDuplicateSources, pairs, foldl_flatMap, foldl_map]
  have hpairs : ∀ p ∈ pairs, p.1 ∈ names ∧ p.2 ∈ names := by
    simp only [pairs, mem_flatMap, List.mem_map, Enumeration.mem_order]
    rintro p ⟨i, hi, j, hj, rfl⟩
    exact ⟨hi, hj⟩
  have hall (i j : String) (hi : i ∈ names) (hj : j ∈ names) : (i, j) ∈ pairs := by
    simp only [pairs, mem_flatMap, List.mem_map, Enumeration.mem_order]
    exact ⟨i, hi, j, hj, rfl⟩
  have hstart : Partial names c c := fun _ => .inl rfl
  rw [hfold]
  funext n
  by_cases hn : n ∈ names ∧ ¬Prevails names c n
  · obtain ⟨w, hw, hsource, hprev⟩ := exists_prevails (c := c) hn.1
    have hnw : n ≠ w := fun h => hn.2 (h ▸ hprev)
    rw [deduped, if_pos hn]
    exact foldl_settles hstart hn.1 hw hnw hsource.symm hprev pairs hpairs (hall n w hn.1 hw)
  · rw [deduped, if_neg hn]
    rcases partial_foldl hstart pairs hpairs n with h | ⟨hmem, hnot, _⟩
    · exact h
    · exact absurd ⟨hmem, hnot⟩ hn

end BeepMusic.Grouper
