import Mathlib.Data.List.Basic

/-!
Components whose calls may never return. A state can put off work that another state
does at once: it answers as the other one does, and where a call to the other one never
returns it goes on, but is lost. What holds for one call holds for a sequence of calls.
-/

namespace BeepMusic.Lib

/-- How a component answers a call; `none` if the call never returns. -/
structure Calls (σ ι ο : Type) where
  perform : σ → ι → Option (ο × σ)

namespace Calls

variable {σ ι ο : Type}

/-- The answers to a sequence of calls, and the state after it. -/
def run (c : Calls σ ι ο) : σ → List ι → Option (List ο × σ)
  | s, [] => some ([], s)
  | s, i :: is => (c.perform s i).bind fun r => (c.run r.2 is).map fun rs => (r.1 :: rs.1, rs.2)

/-- States related by `R` put off what the other state does; those in `Lost` have put
off what never ends. -/
structure Defers (c : Calls σ ι ο) (R : σ → σ → Prop) (Lost : σ → Prop) : Prop where
  returns : ∀ s t i o t', R s t → c.perform t i = some (o, t') →
    ∃ s', c.perform s i = some (o, s') ∧ R s' t'
  hangs : ∀ s t i, R s t → c.perform t i = none → ∃ o s', c.perform s i = some (o, s') ∧ Lost s'
  lost : ∀ s i, Lost s → ∃ o s', c.perform s i = some (o, s') ∧ Lost s'

variable {c : Calls σ ι ο} {R : σ → σ → Prop} {Lost : σ → Prop} {s t t' : σ} {is : List ι}

theorem run_cons {i : ι} {o : ο} (h : c.perform s i = some (o, t)) :
    c.run s (i :: is) = (c.run t is).map fun rs => (o :: rs.1, rs.2) := by
  rw [run, h, Option.bind_some]

namespace Defers

theorem run_returns (h : c.Defers R Lost) {os : List ο} (hst : R s t)
    (hrun : c.run t is = some (os, t')) : ∃ s', c.run s is = some (os, s') ∧ R s' t' := by
  induction is generalizing s t os with
  | nil =>
    cases hrun
    exact ⟨s, rfl, hst⟩
  | cons i is ih =>
    cases hcall : c.perform t i with
    | none =>
      rw [run, hcall] at hrun
      cases hrun
    | some r =>
      obtain ⟨o, middle⟩ := r
      obtain ⟨s₁, hs₁, hrelated⟩ := h.returns s t i o middle hst hcall
      rw [run_cons hcall] at hrun
      obtain ⟨⟨rest, last⟩, hrest, heq⟩ := Option.map_eq_some_iff.mp hrun
      cases heq
      obtain ⟨s', hs', hlast⟩ := ih hrelated hrest
      exact ⟨s', by rw [run_cons hs₁, hs']; rfl, hlast⟩

theorem run_lost (h : c.Defers R Lost) (hs : Lost s) (is : List ι) :
    ∃ os s', c.run s is = some (os, s') ∧ Lost s' := by
  induction is generalizing s with
  | nil => exact ⟨[], s, rfl, hs⟩
  | cons i is ih =>
    obtain ⟨o, s₁, hs₁, hlost⟩ := h.lost s i hs
    obtain ⟨os, s', hs', hlast⟩ := ih hlost
    exact ⟨o :: os, s', by rw [run_cons hs₁, hs']; rfl, hlast⟩

theorem run_hangs (h : c.Defers R Lost) (hst : R s t) (hrun : c.run t is = none) :
    ∃ os s', c.run s is = some (os, s') ∧ Lost s' := by
  induction is generalizing s t with
  | nil => cases hrun
  | cons i is ih =>
    cases hcall : c.perform t i with
    | none =>
      obtain ⟨o, s₁, hs₁, hlost⟩ := h.hangs s t i hst hcall
      obtain ⟨os, s', hs', hlast⟩ := h.run_lost hlost is
      exact ⟨o :: os, s', by rw [run_cons hs₁, hs']; rfl, hlast⟩
    | some r =>
      obtain ⟨o, middle⟩ := r
      obtain ⟨s₁, hs₁, hrelated⟩ := h.returns s t i o middle hst hcall
      rw [run_cons hcall, Option.map_eq_none_iff] at hrun
      obtain ⟨os, s', hs', hlast⟩ := ih hrelated hrun
      exact ⟨o :: os, s', by rw [run_cons hs₁, hs']; rfl, hlast⟩

end Defers

end Calls

end BeepMusic.Lib
