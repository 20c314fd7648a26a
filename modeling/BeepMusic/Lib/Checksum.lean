import Mathlib.Data.List.Basic

/-! A checksum that folds a step over its input sees every change of one place, if the step
loses nothing. -/

namespace BeepMusic.Lib

open Function List

variable {σ α : Type} {f : σ → α → σ} (hstate : ∀ a, Injective (f · a))
include hstate

theorem foldl_injective (l : List α) : Injective fun s => l.foldl f s := by
  induction l with
  | nil => exact injective_id
  | cons a l ih => exact ih.comp (hstate a)

theorem foldl_set_ne (hinput : ∀ s, Injective (f s)) {l : List α} {i : ℕ} {b : α}
    (h : l.set i b ≠ l) (s : σ) : (l.set i b).foldl f s ≠ l.foldl f s := by
  induction l generalizing i s with
  | nil => exact absurd rfl h
  | cons a l ih =>
    cases i with
    | zero => exact fun heq => h (congrArg (· :: l) (hinput s (foldl_injective hstate l heq)))
    | succ i => exact ih (fun heq => h (congrArg (a :: ·) heq)) (f s a)

end BeepMusic.Lib
