import Mathlib.Data.List.Range

/-!
Ledgers of requests. Requests are numbered in the order in which they are
issued. A ledger is balanced when each request issued so far is either answered
or open, and only once, so a component that keeps its ledger balanced answers
nothing twice and loses nothing.
-/

namespace BeepMusic.Lib

open List

/-- The requests below `issued` are split into `answered` and `waiting`. -/
def Balanced (issued : ℕ) (answered waiting : List ℕ) : Prop :=
  (answered ++ waiting).Perm (List.range issued)

namespace Balanced

variable {issued : ℕ} {answered waiting waiting' : List ℕ}

theorem init : Balanced 0 [] [] := by simp [Balanced]

theorem perm (h : Balanced issued answered waiting) (hperm : waiting'.Perm waiting) :
    Balanced issued answered waiting' :=
  (hperm.append_left answered).trans h

theorem answer {r : ℕ} (h : Balanced issued answered (r :: waiting)) :
    Balanced issued (answered ++ [r]) waiting := by
  simpa [Balanced] using h

theorem answerAll {rs : List ℕ} (h : Balanced issued answered (rs ++ waiting)) :
    Balanced issued (answered ++ rs) waiting := by
  simpa [Balanced] using h

variable (h : Balanced issued answered waiting)
include h

theorem issue : Balanced (issued + 1) answered (issued :: waiting) := by
  rw [Balanced, range_succ]
  calc
    List.Perm (answered ++ issued :: waiting) (issued :: (answered ++ waiting)) :=
      perm_middle
    List.Perm _ (issued :: List.range issued) := List.Perm.cons issued h
    List.Perm _ (List.range issued ++ [issued]) := (perm_append_singleton _ _).symm

theorem nodup : (answered ++ waiting).Nodup :=
  h.symm.nodup nodup_range

theorem nodup_answered : answered.Nodup :=
  (nodup_append.mp h.nodup).1

theorem nodup_waiting : waiting.Nodup :=
  (nodup_append.mp h.nodup).2.1

theorem lt_of_mem_waiting {r : ℕ} (hr : r ∈ waiting) : r < issued :=
  mem_range.mp (h.mem_iff.mp (mem_append_right _ hr))

theorem mem_of_lt {r : ℕ} (hr : r < issued) : r ∈ answered ∨ r ∈ waiting :=
  mem_append.mp (h.mem_iff.mpr (mem_range.mpr hr))

theorem not_mem_answered {r : ℕ} (hr : r ∈ waiting) : r ∉ answered :=
  fun hmem => (nodup_append.mp h.nodup).2.2 r hmem r hr rfl

end Balanced

end BeepMusic.Lib
