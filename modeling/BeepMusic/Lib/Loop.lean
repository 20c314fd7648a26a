import Mathlib.Data.Nat.Notation

/-!
Loops. The body of a loop stops, goes round again or fails. A loop is run for a number of turns and
has no result if that was not enough, so that a loop without an end is one that has no result for
any number. A loop that only collects what it passes is given by its steps.
-/

namespace BeepMusic.Lib

/-- What one turn of a loop comes to. -/
inductive Turn (σ ε : Type)
  | stop (s : σ)
  | again (s : σ)
  | fail (e : ε)

variable {σ ε α : Type}

def loop (turn : σ → Turn σ ε) : ℕ → σ → Option (Except ε σ)
  | 0, _ => none
  | n + 1, s =>
    match turn s with
    | .stop s' => some (.ok s')
    | .again s' => loop turn n s'
    | .fail e => some (.error e)

/-- The loop ends without a failure. -/
def Ends (turn : σ → Turn σ ε) (s s' : σ) : Prop := ∃ n, loop turn n s = some (.ok s')

variable {turn : σ → Turn σ ε} {s s' : σ}

theorem Ends.of_stop (h : turn s = .stop s') : Ends turn s s' :=
  ⟨1, by simp only [loop, h]⟩

theorem Ends.of_again {s'' : σ} (h : turn s = .again s') (hends : Ends turn s' s'') :
    Ends turn s s'' := by
  obtain ⟨n, hn⟩ := hends
  exact ⟨n + 1, by simp only [loop, h, hn]⟩

/-- A loop ends if an invariant keeps it from failing and a measure decreases. -/
theorem exists_ends {I : σ → Prop} (m : σ → ℕ)
    (hturn : ∀ s, I s → (∃ s', turn s = .stop s') ∨
      ∃ s', turn s = .again s' ∧ I s' ∧ m s' < m s) (hs : I s) : ∃ s', Ends turn s s' := by
  induction hk : m s using Nat.strongRecOn generalizing s with
  | ind k ih =>
    rcases hturn s hs with ⟨s', hstop⟩ | ⟨s', hagain, hs', hlt⟩
    · exact ⟨s', .of_stop hstop⟩
    · obtain ⟨s'', hends⟩ := ih (m s') (hk ▸ hlt) hs' rfl
      exact ⟨s'', .of_again hagain hends⟩

/-- What the turns of a loop preserve holds when it ends. -/
theorem Ends.invariant {I : σ → Prop} (h : Ends turn s s') (hs : I s)
    (hturn : ∀ s s', I s → turn s = .again s' ∨ turn s = .stop s' → I s') : I s' := by
  obtain ⟨n, hn⟩ := h
  induction n generalizing s with
  | zero => cases hn
  | succ n ih =>
    simp only [loop] at hn
    cases hcase : turn s with
    | stop t =>
      rw [hcase] at hn
      cases hn
      exact hturn s _ hs (.inr hcase)
    | again t =>
      rw [hcase] at hn
      exact ih (hturn s t hs (.inl hcase)) hn
    | fail e =>
      rw [hcase] at hn
      cases hn

def collect (next : σ → Option (α × σ)) : ℕ → σ → List α
  | 0, _ => []
  | n + 1, s =>
    match next s with
    | none => []
    | some (a, s') => a :: collect next n s'

section

variable {next : σ → Option (α × σ)} {m : σ → ℕ}
  (hnext : ∀ s a s', next s = some (a, s') → m s' < m s)

include hnext

/-- As many turns as the measure says are enough. -/
theorem collect_eq_collect {s : σ} {n : ℕ} (hn : m s ≤ n) :
    collect next n s = collect next (m s) s := by
  induction hk : m s using Nat.strongRecOn generalizing s n with
  | ind k ih =>
    cases hstep : next s with
    | none => cases n <;> cases k <;> simp only [collect, hstep]
    | some step =>
      obtain ⟨a, s'⟩ := step
      have hlt := hnext s a s' hstep
      obtain ⟨n, rfl⟩ := Nat.exists_eq_succ_of_ne_zero (n := n) (by omega)
      obtain ⟨k, rfl⟩ := Nat.exists_eq_succ_of_ne_zero (n := k) (by omega)
      simp only [collect, hstep]
      rw [ih (m s') (by omega) (by omega) rfl, ← ih (m s') (by omega) (n := k) (by omega) rfl]

theorem collect_some {s s' : σ} {a : α} (h : next s = some (a, s')) :
    collect next (m s) s = a :: collect next (m s') s' := by
  have hlt := hnext s a s' h
  obtain ⟨k, hk⟩ := Nat.exists_eq_succ_of_ne_zero (n := m s) (by omega)
  rw [hk, ← collect_eq_collect hnext (s := s') (n := k) (by omega)]
  simp [collect, h]

end

end BeepMusic.Lib
