import Mathlib.Data.Int.Notation
import Mathlib.Data.List.Basic

/-!
`beep_model_get_station_spans` of `beepdata/model.c`: the rows of the history file say
when a station was chosen and when playing was paused, resumed and stopped, and the scan
makes of them the spans of time in which one station played.

The second part says what the spans are for, row by row and without a scan: an interval
begins at a row, and ends at the next row that ends one. The two agree exactly on the
histories in which playing is not resumed while it goes on, from the second interval on,
and every interval that a STOP ends lasts a number of whole seconds and some microseconds.
-/

namespace BeepMusic.Beepdata

open List Option

/-- `struct timeval`. -/
structure Timeval where
  sec : ℤ
  usec : ℤ
  deriving DecidableEq

/-- `timersub`. -/
def Timeval.sub (a b : Timeval) : Timeval :=
  if a.usec - b.usec < 0 then ⟨a.sec - b.sec - 1, a.usec - b.usec + 1000000⟩
  else ⟨a.sec - b.sec, a.usec - b.usec⟩

/-- `timercmp(a, b, <)`. -/
def Timeval.Before (a b : Timeval) : Prop := a.sec < b.sec ∨ (a.sec = b.sec ∧ a.usec < b.usec)
deriving Decidable

theorem Timeval.Before.ne {a b : Timeval} (h : a.Before b) : a ≠ b := by
  rintro rfl
  unfold Timeval.Before at h
  omega

inductive HistoryEventType
  | stationChange
  | pause
  | resume
  | stop
  deriving DecidableEq

/-- A row of the history. Only a change of the station has data of interest. -/
structure HistoryEvent (σ : Type) where
  time : Timeval
  event : HistoryEventType
  eventData : σ
  deriving DecidableEq

structure StationSpan (σ : Type) where
  startTime : Timeval
  elapsedTime : Timeval
  station : σ
  deriving DecidableEq

/-! ### The scan -/

variable {σ : Type}

/-- A span that has no end yet. -/
structure PendingSpan (σ : Type) where
  startTime : Timeval
  station : σ

/-- `beep_model_span_mark_end`. -/
def PendingSpan.markEnd (pending : PendingSpan σ) (endEvent : HistoryEvent σ) : StationSpan σ :=
  ⟨pending.startTime, endEvent.time.sub pending.startTime, pending.station⟩

/-- The variables of the loop. -/
structure Scan (σ : Type) where
  spans : List (StationSpan σ)
  pending : Option (PendingSpan σ)

namespace Scan

def init : Scan σ := ⟨[], none⟩

/-- The pending span, if there is one, ends and is put behind the others. -/
def commit (s : Scan σ) (event : HistoryEvent σ) : List (StationSpan σ) :=
  s.spans ++ (s.pending.map fun pending => pending.markEnd event).toList

/-- The body of the loop. -/
def step (s : Scan σ) (event : HistoryEvent σ) : Scan σ :=
  match event.event with
  | .stationChange => ⟨s.commit event, some ⟨event.time, event.eventData⟩⟩
  | .pause => ⟨s.commit event, none⟩
  | .resume =>
    -- a span that is still pending is only logged as an error
    match s.spans.getLast? with
    | some last => { s with pending := some ⟨event.time, last.station⟩ }
    | none => s
  | .stop =>
    match s.pending with
    | none => s
    | some pending =>
      let span := pending.markEnd event
      if 0 < span.elapsedTime.sec ∧ 0 < span.elapsedTime.usec then ⟨s.spans ++ [span], none⟩
      else ⟨s.spans, none⟩

end Scan

variable (rows : List (HistoryEvent σ))

/-- `beep_model_get_station_spans`. -/
def getStationSpans : List (StationSpan σ) :=
  (rows.foldl Scan.step .init).spans

/-! ### What the spans are for -/

variable (before : List (HistoryEvent σ))

/-- The station of the last change. -/
def mostRecentStation : Option σ :=
  before.foldl (fun station e =>
    if e.event = .stationChange then some e.eventData else station) none

/-- Whether a station plays after some rows. -/
def isPlaying : Bool :=
  (mostRecentStation before).isSome && before.foldl (fun _ e =>
    decide (e.event = .stationChange ∨ e.event = .resume)) false

/-- The station of the interval that begins at a row, if one begins there. -/
def beginsAt (e : HistoryEvent σ) : Option σ :=
  match e.event with
  | .stationChange => some e.eventData
  | .resume => if isPlaying before then none else mostRecentStation before
  | .pause => none
  | .stop => none

/-- The row that ends an interval. -/
def endRow (after : List (HistoryEvent σ)) : Option (HistoryEvent σ) :=
  after.find? fun e => e.event ≠ .resume

/-- An interval in which a station played, and what ended it. -/
structure Interval (σ : Type) where
  span : StationSpan σ
  endedBy : HistoryEventType
  deriving DecidableEq

/-- The interval that begins somewhere, if it has an end. -/
def intervalFrom (start : Timeval) (station : σ) (after : List (HistoryEvent σ)) :
    Option (Interval σ) :=
  (endRow after).map fun e => ⟨⟨start, e.time.sub start, station⟩, e.event⟩

def intervalsBehind (before : List (HistoryEvent σ)) : List (HistoryEvent σ) → List (Interval σ)
  | [] => []
  | e :: after =>
    ((beginsAt before e).bind fun station => intervalFrom e.time station after).toList ++
      intervalsBehind (before ++ [e]) after

/-- The playing intervals of a history, in order. -/
def playingIntervals : List (Interval σ) := intervalsBehind [] rows

/-! ### Where they agree -/

/-- Once an interval has ended, playing is not resumed within another one that has an end. -/
def ResumesHarmlessly (ended : Bool) (before : List (HistoryEvent σ)) :
    List (HistoryEvent σ) → Prop
  | [] => True
  | e :: after =>
    (e.event = .resume → isPlaying before = true → ended = true → endRow after = none) ∧
      ResumesHarmlessly (ended || isPlaying before && decide (e.event ≠ .resume)) (before ++ [e])
        after

/-- A STOP ends an interval of a second or more that is not a number of whole seconds. -/
def Interval.Kept (i : Interval σ) : Prop :=
  i.endedBy = .stop → 0 < i.span.elapsedTime.sec ∧ 0 < i.span.elapsedTime.usec

/-- What the scan holds after some rows, if nothing was lost so far. -/
structure Scan.After (s : Scan σ) (ended : Bool) (before : List (HistoryEvent σ)) : Prop where
  ended : ended = !s.spans.isEmpty
  playing : isPlaying before = s.pending.isSome
  station : ∀ pending, s.pending = some pending → mostRecentStation before = some pending.station
  last : s.pending = none → mostRecentStation before = s.spans.getLast?.map StationSpan.station

variable {s : Scan σ} {before after : List (HistoryEvent σ)} {e : HistoryEvent σ} {ended : Bool}

@[simp] theorem mostRecentStation_append (before : List (HistoryEvent σ)) (e : HistoryEvent σ) :
    mostRecentStation (before ++ [e]) =
      if e.event = .stationChange then some e.eventData else mostRecentStation before := by
  rw [mostRecentStation, foldl_append]
  rfl

theorem isPlaying_append (before : List (HistoryEvent σ)) (e : HistoryEvent σ) :
    isPlaying (before ++ [e]) = ((mostRecentStation (before ++ [e])).isSome &&
      decide (e.event = .stationChange ∨ e.event = .resume)) := by
  rw [isPlaying, foldl_append]
  rfl

namespace Scan

/-- The interval of the pending span. -/
def closing (s : Scan σ) (after : List (HistoryEvent σ)) : Option (Interval σ) :=
  s.pending.bind fun pending => intervalFrom pending.startTime pending.station after

/-- The interval that begins at a row. -/
def opening (before : List (HistoryEvent σ)) (e : HistoryEvent σ)
    (after : List (HistoryEvent σ)) : Option (Interval σ) :=
  (beginsAt before e).bind fun station => intervalFrom e.time station after

theorem intervalsBehind_cons : intervalsBehind before (e :: after) =
    (opening before e after).toList ++ intervalsBehind (before ++ [e]) after := rfl

theorem after_init : (init : Scan σ).After false [] := ⟨rfl, rfl, nofun, fun _ => rfl⟩

theorem endRow_cons (h : e.event ≠ .resume) : endRow (e :: after) = some e :=
  find?_cons_of_pos (by simpa using h)

theorem endRow_resume (h : e.event = .resume) : endRow (e :: after) = endRow after :=
  find?_cons_of_neg (by simpa using h)

/-- A row that ends an interval ends the one of the pending span. -/
theorem closing_cons (h : e.event ≠ .resume) :
    s.closing (e :: after) = s.pending.map fun pending => ⟨pending.markEnd e, e.event⟩ := by
  rw [closing]
  cases s.pending with
  | none => rfl
  | some pending =>
    rw [bind_some, intervalFrom, endRow_cons h]
    rfl

theorem closing_resume (h : e.event = .resume) : s.closing (e :: after) = s.closing after := by
  simp [closing, intervalFrom, endRow_resume h]

theorem isPlaying_resume (h : e.event = .resume) :
    isPlaying (before ++ [e]) = (mostRecentStation before).isSome := by
  simp [isPlaying_append, h]

theorem opening_resume (h : e.event = .resume) : opening before e after =
    if isPlaying before then none
    else (mostRecentStation before).bind fun station => intervalFrom e.time station after := by
  rw [opening, beginsAt, h]
  split_ifs <;> rfl

theorem isSome_of_isPlaying (h : isPlaying before = true) :
    (mostRecentStation before).isSome = true :=
  (Bool.and_eq_true_iff.mp h).1

/-- The times at which spans that are still to come may begin. -/
def starts (s : Scan σ) (after : List (HistoryEvent σ)) : List Timeval :=
  s.pending.toList.map PendingSpan.startTime ++ after.map HistoryEvent.time

theorem exists_spans_step (s : Scan σ) (e : HistoryEvent σ) :
    (∃ first, (s.step e).spans = s.spans ++ first ∧
      ∀ span ∈ first, span.startTime ∈ s.pending.toList.map PendingSpan.startTime) ∧
    ∀ pending, (s.step e).pending = some pending →
      s.pending = some pending ∨ pending.startTime = e.time := by
  have hcommit : ∀ span ∈ (s.pending.map fun pending => pending.markEnd e).toList,
      span.startTime ∈ s.pending.toList.map PendingSpan.startTime := by
    cases s.pending <;> simp [PendingSpan.markEnd]
  simp only [step, commit]
  split
  · exact ⟨⟨_, rfl, hcommit⟩, by rintro _ ⟨⟩; exact .inr rfl⟩
  · exact ⟨⟨_, rfl, hcommit⟩, nofun⟩
  · split
    · exact ⟨⟨[], by simp⟩, by rintro _ ⟨⟩; exact .inr rfl⟩
    · exact ⟨⟨[], by simp⟩, fun _ h => .inl h⟩
  · split
    · exact ⟨⟨[], by simp⟩, fun _ h => .inl h⟩
    · rename_i pending hpending
      rw [hpending] at hcommit ⊢
      split_ifs
      · exact ⟨⟨_, rfl, hcommit⟩, nofun⟩
      · exact ⟨⟨[], by simp⟩, nofun⟩

theorem exists_spans_eq (s : Scan σ) (after : List (HistoryEvent σ)) :
    ∃ more, (after.foldl Scan.step s).spans = s.spans ++ more ∧
      ∀ span ∈ more, span.startTime ∈ s.starts after := by
  induction after generalizing s with
  | nil => exact ⟨[], by simp⟩
  | cons e after ih =>
    obtain ⟨more, hmore, hstarts⟩ := ih (s.step e)
    obtain ⟨⟨first, hfirst, hold⟩, hpending⟩ := s.exists_spans_step e
    refine ⟨first ++ more, by rw [foldl_cons, hmore, hfirst, append_assoc], ?_⟩
    refine forall_mem_append.mpr ⟨fun span hspan => mem_append_left _ (hold span hspan),
      fun span hspan => ?_⟩
    rcases mem_append.mp (hstarts span hspan) with hin | hin
    · obtain ⟨pending, hin, hstart⟩ := List.mem_map.mp hin
      rcases hpending pending (mem_toList.mp hin) with hsame | htime
      · exact mem_append_left _ (List.mem_map.mpr ⟨pending, mem_toList.mpr hsame, hstart⟩)
      · exact mem_append_right _ (by simp [← hstart, htime])
    · exact mem_append_right _ (.tail _ hin)

/-- An interval that is not committed where it ends, and begins before all that is to come, is
lost. -/
theorem spans_ne {i : Interval σ} (hstep : (s.step e).spans = s.spans)
    (hstart : ∀ t ∈ (s.step e).starts after, i.span.startTime.Before t)
    (behind : List (Interval σ)) : ((e :: after).foldl Scan.step s).spans ≠
      s.spans ++ (i :: behind).map Interval.span := by
  intro heq
  obtain ⟨more, hmore, hstarts⟩ := (s.step e).exists_spans_eq after
  rw [foldl_cons, hmore, hstep, append_cancel_left_eq] at heq
  exact (hstart _ (hstarts i.span (heq ▸ .head _))).ne rfl

/-- Rows that only resume what plays. -/
theorem spans_of_endRow_eq_none (hend : endRow after = none) (hplaying : isPlaying before = true)
    (s : Scan σ) : (after.foldl Scan.step s).spans = s.spans ∧
      intervalsBehind before after = [] ∧ ∀ ended, ResumesHarmlessly ended before after := by
  induction after generalizing s before with
  | nil => exact ⟨rfl, rfl, fun _ => trivial⟩
  | cons e after ih =>
    have hev : e.event = .resume := by
      by_contra hne
      rw [endRow_cons hne] at hend
      cases hend
    rw [endRow_resume hev] at hend
    have hrecent := isSome_of_isPlaying hplaying
    obtain ⟨hspans, hbehind, hharmless⟩ :=
      @ih (before ++ [e]) hend (by rw [isPlaying_resume hev, hrecent]) (s.step e)
    refine ⟨?_, ?_, fun ended => ⟨fun _ _ _ => hend, hharmless _⟩⟩
    · rw [foldl_cons, hspans]
      simp only [step, hev]
      split <;> rfl
    · rw [intervalsBehind_cons, opening_resume hev, if_pos hplaying, hbehind]
      rfl

/-! ### A scan that has lost nothing -/

theorem commit_eq (h : e.event ≠ .resume) (after : List (HistoryEvent σ)) :
    s.commit e = s.spans ++ (s.closing (e :: after)).toList.map Interval.span := by
  rw [commit, closing_cons h]
  cases s.pending <;> rfl

/-- What one turn of the loop makes of the intervals: the pending one ends, or it is the
one that begins. -/
structure Turn (s : Scan σ) (ended : Bool) (before : List (HistoryEvent σ)) (e : HistoryEvent σ)
    (after : List (HistoryEvent σ)) : Prop where
  holds : (s.step e).After (ended || isPlaying before && decide (e.event ≠ .resume))
    (before ++ [e])
  spans : (s.step e).spans ++ ((s.step e).closing after).toList.map Interval.span =
    s.spans ++ ((s.closing (e :: after)).toList ++ (opening before e after).toList).map
      Interval.span
  kept : (∀ i ∈ ((s.step e).closing after).toList, i.Kept) ↔
    ∀ i ∈ (s.closing (e :: after)).toList ++ (opening before e after).toList, i.Kept

/-- A row that ends an interval commits the pending span, and may begin another one. -/
theorem After.turn_commit (hs : s.After ended before) (hne : e.event ≠ .resume)
    (hstep : s.step e = ⟨s.commit e, (beginsAt before e).map fun station => ⟨e.time, station⟩⟩)
    (hkept : ∀ i ∈ (s.closing (e :: after)).toList, i.Kept) : s.Turn ended before e after := by
  have hclosing : (s.step e).closing after = opening before e after := by
    rw [hstep, closing, opening, bind_map]
    rfl
  refine ⟨?_, ?_, ?_⟩
  · rw [hstep]
    refine ⟨?_, ?_, ?_, ?_⟩
    · rw [hs.ended, hs.playing, commit]
      cases s.pending <;> simp [hne]
    · cases hev : e.event <;> simp_all [isPlaying_append, beginsAt]
    · cases hev : e.event <;> simp_all [beginsAt]
    · intro hnone
      have hold : e.event ≠ .stationChange := by
        rintro hev
        simp [beginsAt, hev] at hnone
      rw [mostRecentStation_append, if_neg hold, commit]
      cases hpending : s.pending with
      | none => simpa using hs.last hpending
      | some pending => simpa [PendingSpan.markEnd] using hs.station pending hpending
  · rw [hclosing, hstep, commit_eq hne after, map_append, append_assoc]
  · rw [hclosing, forall_mem_append]
    exact ⟨fun h => ⟨hkept, h⟩, And.right⟩

/-- Playing goes on, or it is resumed with the station of the last span. -/
theorem After.turn_resume (hs : s.After ended before) (hev : e.event = .resume)
    (hok : isPlaying before = true → ended = false) : s.Turn ended before e after := by
  have hended : (ended || isPlaying before && decide (e.event ≠ .resume)) = ended := by simp [hev]
  have hrecent : mostRecentStation (before ++ [e]) = mostRecentStation before := by simp [hev]
  cases hlast : s.spans.getLast? with
  | none =>
    have hstep : s.step e = s := by simp only [step, hev, hlast]
    have hplaying : isPlaying before = (mostRecentStation before).isSome := by
      rw [hs.playing]
      cases hpending : s.pending with
      | none => rw [hs.last hpending, hlast]; rfl
      | some pending => rw [hs.station pending hpending]; rfl
    have hopening : opening before e after = none := by
      rw [opening_resume hev, hplaying]
      cases mostRecentStation before <;> rfl
    refine ⟨?_, ?_, ?_⟩
    · rw [hstep, hended]
      refine ⟨hs.ended, ?_, hrecent ▸ hs.station, hrecent ▸ hs.last⟩
      rw [isPlaying_resume hev, ← hplaying, hs.playing]
    · rw [hstep, closing_resume hev, hopening, toList_none, append_nil]
    · rw [hstep, closing_resume hev, hopening, toList_none, append_nil]
  | some last =>
    have hstep : s.step e = { s with pending := some ⟨e.time, last.station⟩ } := by
      simp [step, hev, hlast]
    have hpaused : isPlaying before = false := by
      refine eq_false_of_ne_true fun hplaying => ?_
      have hempty := hs.ended
      rw [hok hplaying] at hempty
      simp_all
    have hpending : s.pending = none := by
      have hplaying := hs.playing
      rwa [hpaused, eq_comm, isSome_eq_false_iff, isNone_iff_eq_none] at hplaying
    have hstation : mostRecentStation before = some last.station := by
      rw [hs.last hpending, hlast]
      rfl
    have hclosing : s.closing (e :: after) = none := by rw [closing, hpending]; rfl
    have hopening : opening before e after = (s.step e).closing after := by
      rw [opening_resume hev, hpaused, hstation, hstep]
      rfl
    refine ⟨?_, ?_, ?_⟩
    · rw [hstep, hended]
      refine ⟨hs.ended, by rw [isPlaying_resume hev, hstation]; rfl, ?_, nofun⟩
      rintro _ ⟨⟩
      exact hrecent.trans hstation
    · rw [hclosing, hopening, hstep]
      rfl
    · rw [hclosing, hopening]
      rfl

/-- A STOP commits the pending span if it lasts long enough, and else drops it. -/
theorem step_stop (hev : e.event = .stop) :
    ((∀ i ∈ (s.closing (e :: after)).toList, i.Kept) → s.step e = ⟨s.commit e, none⟩) ∧
      (∀ i ∈ (s.closing (e :: after)).toList, ¬i.Kept → s.step e = ⟨s.spans, none⟩) := by
  rw [closing_cons (by simp [hev])]
  cases hpending : s.pending with
  | none =>
    refine ⟨fun _ => ?_, nofun⟩
    simp only [step, hev, hpending, commit, map_none, toList_none, append_nil]
    rw [← hpending]
  | some pending =>
    simp [step, hev, hpending, commit, Interval.Kept]

/-- The pending span begins before all rows that are to come. -/
def Precedes (s : Scan σ) (after : List (HistoryEvent σ)) : Prop :=
  ∀ pending, s.pending = some pending → ∀ e ∈ after, pending.startTime.Before e.time

theorem Precedes.step (h : s.Precedes (e :: after))
    (hrest : ∀ x ∈ after, e.time.Before x.time) : (s.step e).Precedes after := by
  intro pending hpending x hx
  rcases (s.exists_spans_step e).2 pending hpending with hsame | htime
  · exact h pending hsame x (.tail _ hx)
  · exact htime ▸ hrest x hx

theorem kept_of_ne_stop (hne : e.event ≠ .resume) (hstop : e.event ≠ .stop) :
    ∀ i ∈ (s.closing (e :: after)).toList, i.Kept := by
  intro i hi hended
  rw [closing_cons hne, mem_toList] at hi
  obtain ⟨pending, -, rfl⟩ := Option.map_eq_some_iff.mp hi
  exact absurd hended hstop

/-- A RESUME replaces the pending span. -/
theorem After.spans_ne_of_resume (hs : s.After ended before) (hprecedes : s.Precedes (e :: after))
    (hev : e.event = .resume) (hplaying : isPlaying before = true) (hended : ended = true)
    (hend : endRow after ≠ none) : ((e :: after).foldl Scan.step s).spans ≠
      s.spans ++ ((s.closing (e :: after)).toList ++ intervalsBehind before (e :: after)).map
        Interval.span := by
  obtain ⟨pending, hpending⟩ := isSome_iff_exists.mp (hs.playing.symm.trans hplaying)
  obtain ⟨last, hlast⟩ : ∃ last, s.spans.getLast? = some last := by
    have hspans := hs.ended
    rw [hended] at hspans
    exact ⟨_, getLast?_eq_some_getLast (by simpa using hspans.symm)⟩
  have hstep : s.step e = { s with pending := some ⟨e.time, last.station⟩ } := by
    simp [Scan.step, hev, hlast]
  obtain ⟨x, hx⟩ := Option.ne_none_iff_exists'.mp hend
  have hclosing : s.closing (e :: after) =
      some ⟨⟨pending.startTime, x.time.sub pending.startTime, pending.station⟩, x.event⟩ := by
    rw [closing_resume hev, closing, hpending, bind_some, intervalFrom, hx]
    rfl
  rw [hclosing]
  refine spans_ne (by rw [hstep]) (fun t ht => ?_) _
  rw [hstep] at ht
  change t ∈ (e :: after).map HistoryEvent.time at ht
  obtain ⟨y, hy, rfl⟩ := List.mem_map.mp ht
  exact hprecedes pending hpending y hy

/-- A STOP drops the pending span. -/
theorem spans_ne_of_stop (hprecedes : s.Precedes (e :: after)) (hev : e.event = .stop)
    {i : Interval σ} (hi : i ∈ (s.closing (e :: after)).toList) (hnot : ¬i.Kept)
    (behind : List (Interval σ)) : ((e :: after).foldl Scan.step s).spans ≠
      s.spans ++ ((s.closing (e :: after)).toList ++ behind).map Interval.span := by
  rw [mem_toList.mp hi]
  have hdropped := (step_stop hev).2 i hi hnot
  refine spans_ne (by rw [hdropped]) (fun t ht => ?_) _
  rw [hdropped] at ht
  obtain ⟨y, hy, rfl⟩ := List.mem_map.mp ht
  rw [closing_cons (by simp [hev]), mem_toList] at hi
  obtain ⟨pending, hpending, rfl⟩ := Option.map_eq_some_iff.mp hi
  exact hprecedes pending hpending y (.tail _ hy)

theorem After.run_iff (hs : s.After ended before) (hprecedes : s.Precedes after)
    (htimes : (after.map HistoryEvent.time).Pairwise Timeval.Before) :
    (after.foldl Scan.step s).spans =
        s.spans ++ ((s.closing after).toList ++ intervalsBehind before after).map Interval.span ↔
      ResumesHarmlessly ended before after ∧
        ∀ i ∈ (s.closing after).toList ++ intervalsBehind before after, i.Kept := by
  induction after generalizing s before ended with
  | nil =>
    have hnone : s.closing [] = none := by
      rw [closing]
      cases s.pending <;> rfl
    simp [hnone, intervalsBehind, ResumesHarmlessly]
  | cons e after ih =>
    obtain ⟨hfirst, hrest⟩ := pairwise_cons.mp htimes
    have hprecedes' := hprecedes.step fun x hx => hfirst _ (List.mem_map_of_mem hx)
    -- where nothing is lost, the rest decides
    have hgood : s.Turn ended before e after →
        (e.event = .resume → isPlaying before = true → ended = true → endRow after = none) →
        (((e :: after).foldl Scan.step s).spans = s.spans ++ ((s.closing (e :: after)).toList ++
            intervalsBehind before (e :: after)).map Interval.span ↔
          ResumesHarmlessly ended before (e :: after) ∧ ∀ i ∈ (s.closing (e :: after)).toList ++
            intervalsBehind before (e :: after), i.Kept) := by
      intro hturn hok
      rw [intervalsBehind_cons, ← append_assoc, map_append, ← append_assoc, ← hturn.spans,
        append_assoc, ← map_append, foldl_cons, ih hturn.holds hprecedes' hrest,
        forall_mem_append, forall_mem_append, hturn.kept, ResumesHarmlessly]
      exact and_congr_left fun _ => (and_iff_right hok).symm
    cases hev : e.event with
    | stationChange | pause =>
      refine hgood (hs.turn_commit (by simp [hev]) ?_ (kept_of_ne_stop ?_ ?_)) ?_ <;>
        simp [step, beginsAt, hev]
    | resume =>
      by_cases hlost : isPlaying before = true ∧ ended = true
      · by_cases hend : endRow after = none
        · -- the interval has no end
          rw [← endRow_resume hev] at hend
          obtain ⟨hspans, hbehind, hharmless⟩ := spans_of_endRow_eq_none hend hlost.1 s
          have hclosing : s.closing (e :: after) = none := by
            rw [closing]
            cases s.pending with
            | none => rfl
            | some pending => rw [bind_some, intervalFrom, hend]; rfl
          rw [hspans, hbehind, hclosing]
          simp [hharmless]
        · exact iff_of_false (hs.spans_ne_of_resume hprecedes hev hlost.1 hlost.2 hend)
            fun h => hend (h.1.1 hev hlost.1 hlost.2)
      · refine hgood (hs.turn_resume hev fun hplaying => ?_) fun _ hplaying hended =>
          absurd ⟨hplaying, hended⟩ hlost
        simpa [hplaying] using hlost
    | stop =>
      by_cases hkept : ∀ i ∈ (s.closing (e :: after)).toList, i.Kept
      · refine hgood (hs.turn_commit (by simp [hev]) ?_ hkept) (by simp [hev])
        rw [(step_stop hev).1 hkept]
        simp [beginsAt, hev]
      · push Not at hkept
        obtain ⟨i, hi, hnot⟩ := hkept
        exact iff_of_false (spans_ne_of_stop hprecedes hev hi hnot _) fun h =>
          hnot (h.2 i (mem_append_left _ hi))

end Scan

/-- The times are those of a clock, and increase. -/
def Chronological : Prop :=
  (rows.map HistoryEvent.time).Pairwise Timeval.Before ∧
    ∀ e ∈ rows, 0 ≤ e.time.usec ∧ e.time.usec < 1000000
deriving Decidable

/-- The spans are the playing intervals exactly if no interval is lost to a RESUME or a STOP. -/
theorem getStationSpans_eq_iff (h : Chronological rows) :
    getStationSpans rows = (playingIntervals rows).map Interval.span ↔
      ResumesHarmlessly false [] rows ∧ ∀ i ∈ playingIntervals rows, i.Kept :=
  Scan.after_init.run_iff nofun h.1

/-- A station is paused, resumed and stopped. -/
def pausedStation : List (HistoryEvent String) :=
  [⟨⟨100, 0⟩, .stationChange, "a"⟩, ⟨⟨160, 500000⟩, .pause, ""⟩, ⟨⟨200, 0⟩, .resume, ""⟩,
    ⟨⟨301, 250000⟩, .stop, ""⟩]

theorem getStationSpans_eq_iff_paused :
    getStationSpans pausedStation = (playingIntervals pausedStation).map Interval.span := by
  refine (getStationSpans_eq_iff pausedStation (by decide)).mpr ⟨?_, ?_⟩
  · simp [pausedStation, ResumesHarmlessly, isPlaying]
  · have hintervals : playingIntervals pausedStation =
        [⟨⟨⟨100, 0⟩, ⟨60, 500000⟩, "a"⟩, .pause⟩, ⟨⟨⟨200, 0⟩, ⟨101, 250000⟩, "a"⟩, .stop⟩] := by
      decide
    rw [hintervals]
    simp [Interval.Kept]

/-! ### Where they differ -/

/-- A station plays for ten minutes sharp. -/
def wholeMinutes : List (HistoryEvent String) :=
  [⟨⟨100, 0⟩, .stationChange, "a"⟩, ⟨⟨700, 0⟩, .stop, ""⟩]

/-- A STOP drops a span of whole seconds. -/
theorem stop_drops_wholeMinutes :
    Chronological wholeMinutes ∧
      (playingIntervals wholeMinutes).map Interval.span = [⟨⟨100, 0⟩, ⟨600, 0⟩, "a"⟩] ∧
      getStationSpans wholeMinutes = [] := by
  decide

/-- A station is resumed that is playing. -/
def resumedWhilePlaying : List (HistoryEvent String) :=
  [⟨⟨100, 0⟩, .stationChange, "a"⟩, ⟨⟨200, 0⟩, .stationChange, "b"⟩, ⟨⟨300, 0⟩, .resume, ""⟩,
    ⟨⟨400, 0⟩, .pause, ""⟩]

/-- The time goes to the station of the last span, and what was pending is lost. -/
theorem resume_loses_pending :
    Chronological resumedWhilePlaying ∧
      (playingIntervals resumedWhilePlaying).map Interval.span =
        [⟨⟨100, 0⟩, ⟨100, 0⟩, "a"⟩, ⟨⟨200, 0⟩, ⟨200, 0⟩, "b"⟩] ∧
      getStationSpans resumedWhilePlaying =
        [⟨⟨100, 0⟩, ⟨100, 0⟩, "a"⟩, ⟨⟨300, 0⟩, ⟨100, 0⟩, "a"⟩] := by
  decide

end BeepMusic.Beepdata
