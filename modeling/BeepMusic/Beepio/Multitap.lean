import BeepMusic.Lib.System

/-!
The trigger `multitap` of `beepio`, which counts presses of a button that follow each other
within the time of its timer. Its calls of `send_event` and the presses are kept in order.
-/

namespace BeepMusic.Beepio

open Lib

inductive TapAction
  | press
  | sendEvent (count : ℕ) (down : Bool)
  deriving DecidableEq

/-- The timer is set, or it is `nil`. -/
structure Multitap where
  count : ℕ
  timer : Bool
  down : Bool
  log : List TapAction

inductive TapInput
  | buttonDown
  | buttonUp
  | timerExpire

namespace Multitap

variable (s : Multitap)

def sendEvent : Multitap := { s with log := s.log ++ [.sendEvent s.count s.down] }

def onTimerExpire : Multitap :=
  let s := { s with timer := false }
  if s.down then s else s.sendEvent

/-- That the timer starts anew for the first presses of a run only says when it may expire. -/
def onButtonDown : Multitap :=
  { s with
    down := true
    count := if s.timer then s.count + 1 else 1
    timer := true
    log := s.log ++ [.press] }

def onButtonUp : Multitap :=
  let s := { s with down := false }
  if s.timer then s else s.sendEvent

/-- A button that is up is pressed, and one that is down is released. -/
def step : TapInput → Option Multitap
  | .buttonDown => if s.down then none else some s.onButtonDown
  | .buttonUp => if s.down then some s.onButtonUp else none
  | .timerExpire => if s.timer then some s.onTimerExpire else none

end Multitap

def multitap : System Multitap TapInput where
  init := ⟨0, false, false, []⟩
  step := Multitap.step

/-- The log of a run of `n` presses that ends with its event, sent while the button is up. -/
def tapRun (n : ℕ) : List TapAction := List.replicate n .press ++ [.sendEvent n false]

/-- The log is made of runs with their events and `n` presses of a run that is open: its timer
is set or the button is down. -/
structure Multitap.Counts (s : Multitap) (runs : List ℕ) (n : ℕ) : Prop where
  runs_pos : ∀ run ∈ runs, 0 < run
  log_eq : s.log = runs.flatMap tapRun ++ List.replicate n .press
  pos_iff : 0 < n ↔ s.timer = true ∨ s.down = true
  count_eq : 0 < n → s.count = n

namespace Multitap.Counts

variable {s : Multitap} {runs : List ℕ} {n : ℕ} (h : s.Counts runs n)
include h

theorem onButtonDown (hup : s.down = false) : s.onButtonDown.Counts runs (n + 1) := by
  refine ⟨h.runs_pos, ?_, by simp [Multitap.onButtonDown], fun _ => ?_⟩
  · simp [Multitap.onButtonDown, h.log_eq, List.replicate_succ']
  · have hpos := h.pos_iff
    have hcount := h.count_eq
    rw [hup] at hpos
    cases htimer : s.timer <;> simp_all [Multitap.onButtonDown]

/-- The event of the open run is sent when the button is up and the timer is not set. -/
theorem sendEvent (hpos : 0 < n) {timer down : Bool} (htimer : timer = false)
    (hdown : down = false) : (sendEvent ⟨s.count, timer, down, s.log⟩).Counts (runs ++ [n]) 0 := by
  refine ⟨?_, ?_, by simp [Multitap.sendEvent, htimer, hdown], by simp⟩
  · simpa [or_imp, forall_and] using ⟨h.runs_pos, hpos⟩
  · simp [Multitap.sendEvent, h.log_eq, h.count_eq hpos, hdown, tapRun]

theorem onButtonUp (hdown : s.down = true) : ∃ runs n, s.onButtonUp.Counts runs n := by
  have hpos := h.pos_iff.mpr (.inr hdown)
  rw [Multitap.onButtonUp]
  dsimp only
  split_ifs with htimer
  · exact ⟨runs, n, h.runs_pos, h.log_eq, by simp [hpos, htimer], h.count_eq⟩
  · exact ⟨_, _, h.sendEvent hpos (Bool.eq_false_iff.mpr htimer) rfl⟩

theorem onTimerExpire (htimer : s.timer = true) : ∃ runs n, s.onTimerExpire.Counts runs n := by
  have hpos := h.pos_iff.mpr (.inl htimer)
  rw [Multitap.onTimerExpire]
  dsimp only
  split_ifs with hdown
  · exact ⟨runs, n, h.runs_pos, h.log_eq, by simp [hpos, hdown], h.count_eq⟩
  · exact ⟨_, _, h.sendEvent hpos rfl (Bool.eq_false_iff.mpr hdown)⟩

end Multitap.Counts

/-- The presses fall into runs, one after the other. Each run leads to one event with its
length, sent while the button is up and before the next press; only the last may be open. -/
theorem multitap_counts_presses {s : Multitap} (h : multitap.Reachable s) :
    ∃ runs n, s.Counts runs n := by
  refine h.invariant (I := fun s => ∃ runs n, s.Counts runs n) ?_ ?_
  · exact ⟨[], 0, by simp, rfl, by simp [multitap], by simp⟩
  · rintro s e s' ⟨runs, n, hs⟩ hstep
    cases e with
    | buttonDown =>
      obtain ⟨hup, heq⟩ := Option.ite_none_left_eq_some.mp hstep
      cases heq
      exact ⟨runs, n + 1, hs.onButtonDown (Bool.eq_false_iff.mpr hup)⟩
    | buttonUp =>
      obtain ⟨hdown, rfl⟩ := Option.ite_some_none_eq_some.mp hstep
      exact hs.onButtonUp hdown
    | timerExpire =>
      obtain ⟨htimer, rfl⟩ := Option.ite_some_none_eq_some.mp hstep
      exact hs.onTimerExpire htimer

/-- Two quick presses, and one that is held until after the timer has expired. -/
theorem multitap_counts_presses_held :
    ∃ s, multitap.Reachable s ∧ s.log = tapRun 2 ++ tapRun 1 ∧ ∃ runs n, s.Counts runs n := by
  obtain ⟨s, hreachable, hlog⟩ := System.exists_reachable multitap
    [.buttonDown, .buttonUp, .buttonDown, .buttonUp, .timerExpire, .buttonDown, .timerExpire,
      .buttonUp] (fun s => s.log = tapRun 2 ++ tapRun 1) (by decide +kernel)
  exact ⟨s, hreachable, hlog, multitap_counts_presses hreachable⟩

end BeepMusic.Beepio
