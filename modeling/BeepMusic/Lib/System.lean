import Mathlib.Data.List.Basic

/-!
Guarded transition systems. A component is given by one executable function:
`step s e` is the state after event `e`, or `none` when `e` cannot happen in
`s`. Safety properties are proved by the rules of this file, and the same
function replays a concrete run, so an example and a proof are always about
one semantics.
-/

namespace BeepMusic.Lib

open Option

/-- An initial state and a guarded step function. -/
structure System (σ ε : Type) where
  init : σ
  step : σ → ε → Option σ

namespace System

variable {σ ε : Type} (sys : System σ ε)

/-- Replay a list of events; `none` as soon as one of them is impossible. -/
def runFrom : σ → List ε → Option σ
  | s, [] => some s
  | s, e :: es => (sys.step s e).bind fun s' => runFrom s' es

/-- The states of the runs all of whose steps meet `ok`, a condition on the
event and on the state it happens in. -/
inductive ReachableUnder (ok : σ → ε → Prop) : σ → Prop
  | init : ReachableUnder ok sys.init
  | step {s s' : σ} {e : ε} : ReachableUnder ok s → ok s e → sys.step s e = some s' →
      ReachableUnder ok s'

/-- The states of all runs. -/
def Reachable : σ → Prop := sys.ReachableUnder fun _ _ => True

variable {sys}

variable {I : σ → Prop} {s s' : σ}

/-- An invariant that holds initially and survives every step that meets `ok`
holds along every run whose steps all meet `ok`. -/
theorem ReachableUnder.invariant {ok : σ → ε → Prop} (h : sys.ReachableUnder ok s)
    (hinit : I sys.init) (hstep : ∀ s e s', I s → ok s e → sys.step s e = some s' → I s') :
    I s := by
  induction h with
  | init => exact hinit
  | step _ hok hs ih => exact hstep _ _ _ ih hok hs

theorem Reachable.invariant (h : sys.Reachable s) (hinit : I sys.init)
    (hstep : ∀ s e s', I s → sys.step s e = some s' → I s') : I s :=
  ReachableUnder.invariant h hinit fun s e s' hI _ hs => hstep s e s' hI hs

theorem runFrom_invariant {es : List ε} (hrun : sys.runFrom s es = some s') (hs : I s)
    (hstep : ∀ s e s', e ∈ es → I s → sys.step s e = some s' → I s') : I s' := by
  induction es generalizing s with
  | nil => exact Option.some.inj hrun ▸ hs
  | cons e es ih =>
    obtain ⟨t, ht, hrest⟩ := bind_eq_some_iff.mp hrun
    exact ih hrest (hstep s e t (.head es) hs ht)
      fun s e s' he => hstep s e s' (.tail _ he)

/-- Whether every event of a replay meets a decidable condition. -/
def meets (sys : System σ ε) (ok : σ → ε → Prop) [∀ s e, Decidable (ok s e)] :
    σ → List ε → Bool
  | _, [] => true
  | s, e :: es => decide (ok s e) && (sys.step s e).all fun s' => meets sys ok s' es

theorem ReachableUnder.runFrom {ok : σ → ε → Prop} [∀ s e, Decidable (ok s e)] (es : List ε)
    (h : sys.ReachableUnder ok s) (hok : sys.meets ok s es = true)
    (hrun : sys.runFrom s es = some s') : sys.ReachableUnder ok s' := by
  induction es generalizing s with
  | nil =>
    simp only [System.runFrom, Option.some.injEq] at hrun
    exact hrun ▸ h
  | cons e es ih =>
    cases hstep : sys.step s e with
    | none => simp [System.runFrom, hstep] at hrun
    | some middle =>
      simp only [System.runFrom, hstep, bind_some] at hrun
      simp only [meets, hstep, all_some, Bool.and_eq_true, decide_eq_true_eq] at hok
      exact ih (.step h hok.1 hstep) hok.2 hrun

theorem meets_true {es : List ε} (hrun : sys.runFrom s es = some s') :
    sys.meets (fun _ _ => True) s es = true := by
  induction es generalizing s with
  | nil => rfl
  | cons e es ih =>
    obtain ⟨middle, hstep, hrest⟩ := bind_eq_some_iff.mp hrun
    simp [meets, hstep, ih hrest]

theorem Reachable.runFrom (es : List ε) (h : sys.Reachable s) (hrun : sys.runFrom s es = some s') :
    sys.Reachable s' :=
  ReachableUnder.runFrom es h (meets_true hrun) hrun

/-! A replay that is left to the kernel: what its last state is like is checked by a
decidable test. -/

variable (sys)

theorem exists_reachableUnder (ok : σ → ε → Prop) [∀ s e, Decidable (ok s e)]
    (es : List ε) (test : σ → Prop) (hok : sys.meets ok sys.init es = true)
    (htest : ∃ s ∈ sys.runFrom sys.init es, test s) :
    ∃ s, sys.runFrom sys.init es = some s ∧ sys.ReachableUnder ok s ∧ test s := by
  obtain ⟨s, hrun, hs⟩ := htest
  exact ⟨s, hrun, .runFrom es .init hok hrun, hs⟩

theorem exists_reachable (es : List ε) (test : σ → Prop)
    (htest : ∃ s ∈ sys.runFrom sys.init es, test s) : ∃ s, sys.Reachable s ∧ test s := by
  obtain ⟨s, hrun, hs⟩ := htest
  exact ⟨s, .runFrom es .init hrun, hs⟩

end System

end BeepMusic.Lib
