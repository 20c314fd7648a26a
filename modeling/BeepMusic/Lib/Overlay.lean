import Mathlib.Data.List.Basic

/-!
Updates of a function that write some keys and leave the others alone. What a key is
written does not depend on what was there before, so that updates which have been made
may be made again.
-/

namespace BeepMusic.Lib

variable {κ ν ε : Type}

/-- Write the keys for which the update has a value. -/
def overlay (m : κ → ν) (u : κ → Option ν) : κ → ν := fun k => (u k).getD (m k)

/-- A list of updates, as one update: what counts is the last that writes a key. -/
def lastWrite (effect : ε → κ → Option ν) : List ε → κ → Option ν
  | [], _ => none
  | e :: es, k => (lastWrite effect es k).or (effect e k)

theorem foldl_overlay (effect : ε → κ → Option ν) (es : List ε) (m : κ → ν) :
    es.foldl (fun m e => overlay m (effect e)) m = overlay m (lastWrite effect es) := by
  induction es generalizing m with
  | nil => rfl
  | cons e es ih =>
    funext k
    rw [List.foldl_cons, ih]
    simp only [overlay, lastWrite]
    cases lastWrite effect es k <;> rfl

theorem lastWrite_eq_none {effect : ε → κ → Option ν} {es : List ε} {k : κ}
    (h : ∀ e ∈ es, effect e k = none) : lastWrite effect es k = none := by
  induction es with
  | nil => rfl
  | cons e es ih =>
    rw [lastWrite, ih fun e' he' => h e' (.tail e he'), h e (.head es)]
    rfl

/-- Where all that write a key agree, the order makes no difference. -/
theorem lastWrite_eq_some {effect : ε → κ → Option ν} {es : List ε} {k : κ} {v : ν}
    (h : ∀ e ∈ es, effect e k = none ∨ effect e k = some v) (hv : ∃ e ∈ es, effect e k = some v) :
    lastWrite effect es k = some v := by
  induction es with
  | nil =>
    obtain ⟨e, he, -⟩ := hv
    exact absurd he List.not_mem_nil
  | cons e es ih =>
    have hrest := fun e' he' => h e' (.tail e he')
    rw [lastWrite]
    by_cases hlater : ∃ e' ∈ es, effect e' k = some v
    · rw [ih hrest hlater]
      rfl
    · have hnone : lastWrite effect es k = none := by
        refine lastWrite_eq_none fun e' he' => ?_
        exact (hrest e' he').resolve_right fun heq => hlater ⟨e', he', heq⟩
      obtain ⟨e', he', heq⟩ := hv
      rcases List.mem_cons.mp he' with rfl | hmem
      · rw [hnone, heq]
        rfl
      · exact absurd ⟨e', hmem, heq⟩ hlater

/-- Updates that have been made before, and nothing after them, change nothing. -/
theorem foldl_overlay_again (effect : ε → κ → Option ν) (es : List ε) (m : κ → ν) :
    es.foldl (fun m e => overlay m (effect e)) (es.foldl (fun m e => overlay m (effect e)) m) =
      es.foldl (fun m e => overlay m (effect e)) m := by
  rw [foldl_overlay, foldl_overlay]
  funext k
  simp only [overlay]
  cases lastWrite effect es k <;> rfl

end BeepMusic.Lib
