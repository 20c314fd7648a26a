import BeepMusic.Beepdata.Json
import BeepMusic.Beepdata.Spans
import Mathlib.Data.List.Sort

/-!
`beep_model_history_query_lucky` of `beepdata/model.c`: the last five stations that were
played for long enough. The spans are looked at from the last one on, and a station that
has been selected is not selected again.
-/

namespace BeepMusic.Beepdata

open List Option

/-! ### The query -/

section

variable {δ : Type} [BEq δ]

/-- `beep_model_spans_has_station`; `none` is the exit of the process. -/
def spansHasStation : List (StationSpan (Json δ)) → Json δ → Option Bool
  | [], _ => some false
  | span :: spans, station =>
    match jsonObjectEqual span.station station with
    | some true => some true
    | some false => spansHasStation spans station
    | none => none

/-- The body of the loop; `count` is the length of `long_enough`. -/
def luckyStep (luckyDuration : ℤ) (longEnough : List (StationSpan (Json δ)))
    (span : StationSpan (Json δ)) : Option (List (StationSpan (Json δ))) :=
  if longEnough.length < 5 ∧ luckyDuration ≤ span.elapsedTime.sec then
    (spansHasStation longEnough span.station).map fun has =>
      if has then longEnough else longEnough ++ [span]
  else some longEnough

/-- The loop over the spans, from the last one on, and the one that turns the result
round. -/
def queryLucky (luckyDuration : ℤ) (spans : List (StationSpan (Json δ))) :
    Option (List (StationSpan (Json δ))) :=
  (spans.reverse.foldlM (luckyStep luckyDuration) []).map List.reverse

/-- `beep_model_history_query_lucky`. -/
def historyQueryLucky (luckyDuration : ℤ) (rows : List (HistoryEvent (Json δ))) :
    Option (List (StationSpan (Json δ))) :=
  queryLucky luckyDuration (getStationSpans rows)

end

/-! ### The selection -/

section

variable {σ : Type} (equal : σ → σ → Bool) (luckyDuration : ℤ)

/-- What is selected, in the order of time: whether a span is depends on those behind it. -/
def luckySpans : List (StationSpan σ) → List (StationSpan σ)
  | [] => []
  | span :: later =>
    let selected := luckySpans later
    if selected.length < 5 ∧ luckyDuration ≤ span.elapsedTime.sec ∧
        ¬selected.any (fun s => equal s.station span.station) then
      span :: selected
    else selected

/-- The span at a position lasts long enough, and its station is not that of a later span
at one of the positions `chosen`. -/
def qualifies (spans : List (StationSpan σ)) (chosen : List ℕ) (i : ℕ) : Bool :=
  (spans[i]?).any fun span => decide (luckyDuration ≤ span.elapsedTime.sec) &&
    chosen.all fun j => decide (j ≤ i) || !(spans[j]?).any fun later =>
      equal later.station span.station

/-- The chosen positions are those of the last five spans that qualify. -/
structure Selection (spans : List (StationSpan σ)) (chosen : List ℕ) : Prop where
  sorted : chosen.Pairwise (· < ·)
  length : chosen.length =
    min 5 ((List.range spans.length).countP (qualifies equal luckyDuration spans chosen))
  mem : ∀ i, i ∈ chosen ↔ qualifies equal luckyDuration spans chosen i = true ∧
    (List.range spans.length).countP (fun j =>
      decide (i < j) && qualifies equal luckyDuration spans chosen j) < 5

variable {equal luckyDuration} {span : StationSpan σ} {later : List (StationSpan σ)}

variable {chosen chosen' : List ℕ}

theorem qualifies_succ (h : chosen' = chosen.map (· + 1) ∨ chosen' = 0 :: chosen.map (· + 1))
    (i : ℕ) :
    qualifies equal luckyDuration (span :: later) chosen' (i + 1) =
      qualifies equal luckyDuration later chosen i := by
  rcases h with rfl | rfl <;> simp [qualifies, List.all_map, Function.comp_def]

/-- The first span is compared with those that are chosen behind it. -/
theorem qualifies_zero (h : chosen' = chosen.map (· + 1) ∨ chosen' = 0 :: chosen.map (· + 1)) :
    qualifies equal luckyDuration (span :: later) chosen' 0 =
      (decide (luckyDuration ≤ span.elapsedTime.sec) &&
        !(chosen.filterMap (later[·]?)).any fun s => equal s.station span.station) := by
  have hany : (chosen.filterMap (later[·]?)).any (fun s => equal s.station span.station) =
      chosen.any fun j => (later[j]?).any fun s => equal s.station span.station := by
    induction chosen generalizing chosen' with
    | nil => rfl
    | cons j chosen ih =>
      cases hj : later[j]? <;> simp [hj, ih (.inl rfl)]
  rw [hany, not_any_eq_all_not]
  rcases h with rfl | rfl <;> simp [qualifies, List.all_map, Function.comp_def]

theorem countP_succ (n : ℕ) (p : ℕ → Bool) :
    (List.range (n + 1)).countP p =
      (if p 0 then 1 else 0) + (List.range n).countP (p <| · + 1) := by
  rw [range_succ_eq_map, countP_cons, countP_map, Nat.add_comm]
  rfl

/-- The selection with an earlier span: the positions move on, and the first one is chosen if
it qualifies and there are not five yet. -/
theorem Selection.cons (h : Selection equal luckyDuration later chosen)
    (hcases : chosen' = chosen.map (· + 1) ∨ chosen' = 0 :: chosen.map (· + 1))
    (hzero : 0 ∈ chosen' ↔ chosen.length < 5 ∧
      qualifies equal luckyDuration (span :: later) chosen' 0 = true) :
    Selection equal luckyDuration (span :: later) chosen' := by
  have hlength := h.length
  have hsucc : ∀ i, qualifies equal luckyDuration (span :: later) chosen' (i + 1) =
      qualifies equal luckyDuration later chosen i := qualifies_succ hcases
  have hmem : ∀ i, i + 1 ∈ chosen' ↔ i ∈ chosen := by
    rcases hcases with rfl | rfl <;> simp
  refine ⟨?_, ?_, ?_⟩
  · have hsorted : (chosen.map (· + 1)).Pairwise (· < ·) :=
      pairwise_map.mpr (h.sorted.imp Nat.succ_lt_succ)
    rcases hcases with rfl | rfl
    · exact hsorted
    · refine pairwise_cons.mpr ⟨?_, hsorted⟩
      simp
  · have hcount : (List.range later.length).countP (fun j =>
        qualifies equal luckyDuration (span :: later) chosen' (j + 1)) =
          (List.range later.length).countP (qualifies equal luckyDuration later chosen) :=
      congrArg (countP · _) (funext hsucc)
    rw [length_cons, countP_succ, hcount]
    rcases hcases with rfl | rfl
    · have hskipped : ¬(chosen.length < 5 ∧ qualifies equal luckyDuration (span :: later)
          (chosen.map (· + 1)) 0 = true) := fun htaken => by simpa using hzero.mpr htaken
      rw [length_map]
      split_ifs with hq
      · have hfull : ¬chosen.length < 5 := fun hlt => hskipped ⟨hlt, hq⟩
        omega
      · omega
    · obtain ⟨hlt, hq⟩ := hzero.mp (.head _)
      rw [if_pos hq, length_cons, length_map]
      omega
  · intro i
    rw [length_cons, countP_succ]
    cases i with
    | zero =>
      have hcount : chosen.length < 5 ↔ (List.range later.length).countP
          (qualifies equal luckyDuration later chosen) < 5 := by omega
      simp only [hsucc, Nat.lt_irrefl, Nat.zero_lt_succ, decide_true, decide_false,
        Bool.true_and, Bool.false_and, Bool.false_eq_true, if_false, Nat.zero_add]
      rw [hzero, ← hcount, and_comm]
    | succ i =>
      simp only [hmem, hsucc, Nat.not_lt_zero, Nat.add_lt_add_iff_right, decide_false,
        Bool.false_and, Bool.false_eq_true, if_false, Nat.zero_add]
      exact h.mem i

/-- The recursion selects the last five spans that qualify. -/
theorem luckySpans_selection (equal : σ → σ → Bool) (luckyDuration : ℤ)
    (spans : List (StationSpan σ)) :
    ∃ chosen, Selection equal luckyDuration spans chosen ∧
      luckySpans equal luckyDuration spans = chosen.filterMap (spans[·]?) := by
  induction spans with
  | nil => exact ⟨[], ⟨.nil, rfl, fun i => by simp [qualifies]⟩, rfl⟩
  | cons span later ih =>
    obtain ⟨chosen, hselection, hlater⟩ := ih
    have hlength : (luckySpans equal luckyDuration later).length = chosen.length := by
      rw [hlater, filterMap_length_eq_length]
      intro i hi
      obtain ⟨s, hs, -⟩ := (Option.any_eq_true _ _).mp ((hselection.mem i).mp hi).1
      rw [hs]
      rfl
    have hmoved : (chosen.map (· + 1)).filterMap ((span :: later)[·]?) =
        chosen.filterMap (later[·]?) := by
      rw [filterMap_map]
      rfl
    by_cases htakes : chosen.length < 5 ∧ luckyDuration ≤ span.elapsedTime.sec ∧
        ¬(chosen.filterMap (later[·]?)).any (fun s => equal s.station span.station)
    · refine ⟨0 :: chosen.map (· + 1), hselection.cons (.inr rfl) ?_, ?_⟩
      · rw [qualifies_zero (.inr rfl)]
        simpa using htakes
      · rw [luckySpans, hlength, hlater]
        rw [if_pos htakes]
        exact congrArg (span :: ·) hmoved.symm
    · refine ⟨chosen.map (· + 1), hselection.cons (.inl rfl) ?_, ?_⟩
      · rw [qualifies_zero (.inl rfl)]
        simpa using htakes
      · rw [luckySpans, hlength, hlater]
        rw [if_neg htakes, hmoved]

/-- Whether a span qualifies depends on the later positions only. -/
theorem qualifies_congr {spans : List (StationSpan σ)} {i : ℕ}
    (h : ∀ j, i < j → (j ∈ chosen ↔ j ∈ chosen')) :
    qualifies equal luckyDuration spans chosen i =
      qualifies equal luckyDuration spans chosen' i := by
  have hall : ∀ p : ℕ → Bool, (chosen.all fun j => decide (j ≤ i) || p j) =
      chosen'.all fun j => decide (j ≤ i) || p j := by
    intro p
    rw [Bool.eq_iff_iff, List.all_eq_true, List.all_eq_true]
    constructor
    · intro hp j hj
      rcases Nat.lt_or_ge i j with hlt | hge
      · exact hp j ((h j hlt).mpr hj)
      · simp [hge]
    · intro hp j hj
      rcases Nat.lt_or_ge i j with hlt | hge
      · exact hp j ((h j hlt).mp hj)
      · simp [hge]
  simp [qualifies, hall]

theorem Selection.unique {spans : List (StationSpan σ)}
    (h : Selection equal luckyDuration spans chosen)
    (h' : Selection equal luckyDuration spans chosen') : chosen = chosen' := by
  -- from the last position on: what is chosen behind a position decides about it
  have hback : ∀ k i, spans.length ≤ i + k → (i ∈ chosen ↔ i ∈ chosen') := by
    intro k
    induction k with
    | zero =>
      intro i hi
      have hnone : spans[i]? = none := getElem?_eq_none hi
      rw [h.mem, h'.mem]
      simp [qualifies, hnone]
    | succ k ih =>
      intro i hi
      have hlater : ∀ j, i < j → (j ∈ chosen ↔ j ∈ chosen') := fun j hj => ih j (by omega)
      have hcount : (fun j => decide (i < j) && qualifies equal luckyDuration spans chosen j) =
          fun j => decide (i < j) && qualifies equal luckyDuration spans chosen' j := by
        funext j
        by_cases hj : i < j
        · rw [qualifies_congr fun m hm => hlater m (Nat.lt_trans hj hm)]
        · simp [hj]
      rw [h.mem, h'.mem, qualifies_congr hlater, hcount]
  exact h.sorted.eq_of_mem_iff h'.sorted fun {i} => hback spans.length i (Nat.le_add_left _ _)

theorem luckySpans_sublist (spans : List (StationSpan σ)) :
    (luckySpans equal luckyDuration spans).Sublist spans := by
  induction spans with
  | nil => exact .slnil
  | cons span later ih =>
    rw [luckySpans]
    split_ifs
    · exact ih.cons_cons span
    · exact ih.cons span

end

/-! ### The query and the selection -/

section

variable {δ : Type} [BEq δ]

/-- Whether the process goes on and the answer is yes. -/
def stationEqual (station station' : Json δ) : Bool :=
  jsonObjectEqual station station' == some true

theorem spansHasStation_eq {spans : List (StationSpan (Json δ))}
    (h : ∀ span ∈ spans, span.station.arrayFree = true) (station : Json δ) :
    spansHasStation spans station = some (spans.any fun s => stationEqual s.station station) := by
  induction spans with
  | nil => rfl
  | cons span spans ih =>
    obtain ⟨eq, heq⟩ := isSome_iff_exists.mp
      (jsonObjectEqual_isSome (h span (.head _)) station)
    have hrest := ih fun s hs => h s (.tail _ hs)
    rw [spansHasStation, heq, any_cons, stationEqual, heq]
    cases eq with
    | true => rfl
    | false => exact hrest

/-- A turn of the loop, with the spans that have been selected from the last one on. -/
theorem luckyStep_reverse (luckyDuration : ℤ) (span : StationSpan (Json δ))
    {selected : List (StationSpan (Json δ))}
    (h : ∀ s ∈ selected, s.station.arrayFree = true) :
    luckyStep luckyDuration selected.reverse span = some (List.reverse
      (if selected.length < 5 ∧ luckyDuration ≤ span.elapsedTime.sec ∧
          ¬selected.any (fun s => stationEqual s.station span.station) then span :: selected
        else selected)) := by
  have hreverse : ∀ s ∈ selected.reverse, s.station.arrayFree = true :=
    fun s hs => h s (mem_reverse.mp hs)
  rw [luckyStep, spansHasStation_eq hreverse, any_reverse, length_reverse,
    map_some]
  by_cases hlong : selected.length < 5 ∧ luckyDuration ≤ span.elapsedTime.sec
  · cases hany : selected.any fun s => stationEqual s.station span.station with
    | true => simp
    | false => simp [hlong]
  · rw [if_neg hlong, if_neg fun htakes => hlong ⟨htakes.1, htakes.2.1⟩]

/-- Without arrays in the stations, the query makes the selection. -/
theorem queryLucky_eq (luckyDuration : ℤ) {spans : List (StationSpan (Json δ))}
    (h : ∀ span ∈ spans, span.station.arrayFree = true) :
    queryLucky luckyDuration spans = some (luckySpans stationEqual luckyDuration spans) := by
  have hloop : spans.reverse.foldlM (luckyStep luckyDuration) [] =
      some (luckySpans stationEqual luckyDuration spans).reverse := by
    induction spans with
    | nil => rfl
    | cons span later ih =>
      have hlater := ih fun s hs => h s (.tail _ hs)
      have hselected : ∀ s ∈ luckySpans stationEqual luckyDuration later,
          s.station.arrayFree = true :=
        fun s hs => h s (.tail _ ((luckySpans_sublist later).mem hs))
      rw [reverse_cons, foldlM_append, hlater, bind_eq_bind, bind_some,
        foldlM_cons, luckyStep_reverse luckyDuration span hselected]
      rfl
  rw [queryLucky, hloop, map_some, reverse_reverse]

/-- Where no station has an array in it, the query returns in the order of time exactly
the last five spans that last long enough and whose station is not that of a later one
among them. -/
theorem queryLucky_selection (luckyDuration : ℤ) (spans : List (StationSpan (Json δ)))
    (h : ∀ span ∈ spans, span.station.arrayFree = true) :
    ∃! chosen, Selection stationEqual luckyDuration spans chosen ∧
      queryLucky luckyDuration spans = some (chosen.filterMap (spans[·]?)) := by
  obtain ⟨chosen, hselection, hspans⟩ :=
    luckySpans_selection stationEqual luckyDuration spans
  refine ⟨chosen, ⟨hselection, ?_⟩, fun other hother => hother.1.unique hselection⟩
  rw [queryLucky_eq luckyDuration h, hspans]

/-- Nine spans of ten minutes, two of them of one station. -/
def nineSpans : List (StationSpan (Json Unit)) :=
  [0, 1, 2, 3, 4, 5, 7, 6, 7].zipIdx.map fun e => ⟨⟨600 * e.2, 0⟩, ⟨600, 0⟩, .int e.2 e.1⟩

theorem queryLucky_nineSpans :
    (∃! chosen, Selection stationEqual 600 nineSpans chosen ∧
      queryLucky 600 nineSpans = some (chosen.filterMap (nineSpans[·]?))) ∧
    queryLucky 600 nineSpans = some ([3, 4, 5, 7, 8].filterMap (nineSpans[·]?)) :=
  ⟨queryLucky_selection 600 nineSpans (by decide), rfl⟩

/-- A station with an array in it. -/
def listStation (addr : ℕ) : Json Unit := .object addr (.cons "args" (.array (addr + 1)) .nil)

/-- Two such stations, one after the other. -/
def listStations : List (HistoryEvent (Json Unit)) :=
  [⟨⟨100, 0⟩, .stationChange, listStation 1⟩, ⟨⟨800, 0⟩, .stationChange, listStation 3⟩,
    ⟨⟨1500, 0⟩, .pause, .null⟩]

/-- The process exits when it comes to compare them. -/
theorem queryLucky_exits :
    getStationSpans listStations =
      [⟨⟨100, 0⟩, ⟨700, 0⟩, listStation 1⟩, ⟨⟨800, 0⟩, ⟨700, 0⟩, listStation 3⟩] ∧
    queryLucky 600 (getStationSpans listStations) = none ∧
    historyQueryLucky 600 listStations = none :=
  ⟨rfl, rfl, rfl⟩

end

end BeepMusic.Beepdata
