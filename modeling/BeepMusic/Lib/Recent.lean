import Mathlib.Data.List.Induction
import Mathlib.Data.List.Nodup

/-!
Most recently used: a list of bounded length in which an entry that is used moves to the
front. What it holds are the first distinct entries of all that has been used, read from
the newest on.
-/

namespace BeepMusic.Lib

open List

variable {α : Type} [DecidableEq α]

/-- The entries of a list at their first occurrences. -/
def distinct : List α → List α
  | [] => []
  | a :: l => a :: (distinct l).filter (· ≠ a)

/-- An entry is used. -/
def touch (n : ℕ) (a : α) (l : List α) : List α := (a :: l.filter (· ≠ a)).take n

theorem nodup_distinct (l : List α) : (distinct l).Nodup := by
  induction l with
  | nil => exact nodup_nil
  | cons a l ih =>
    refine nodup_cons.mpr ⟨?_, ih.filter _⟩
    simp

variable {l : List α}

theorem distinct_of_nodup (h : l.Nodup) : distinct l = l := by
  induction l with
  | nil => rfl
  | cons a l ih =>
    obtain ⟨ha, hl⟩ := nodup_cons.mp h
    rw [distinct, ih hl, filter_eq_self.mpr]
    intro b hb
    exact decide_eq_true (ne_of_mem_of_not_mem hb ha)

/-- One entry is left out, so one entry more is enough. -/
theorem take_filter_take (h : l.Nodup) (a : α) (n : ℕ) :
    ((l.take (n + 1)).filter (· ≠ a)).take n = (l.filter (· ≠ a)).take n := by
  induction l generalizing n with
  | nil => rfl
  | cons b l ih =>
    obtain ⟨hb, hl⟩ := nodup_cons.mp h
    cases n with
    | zero => simp
    | succ n =>
      rw [take_succ_cons]
      by_cases hab : b = a
      · subst hab
        have hkeep : ∀ l' : List α, b ∉ l' → l'.filter (· ≠ b) = l' := fun l' hl' =>
          filter_eq_self.mpr fun c hc => decide_eq_true (ne_of_mem_of_not_mem hc hl')
        rw [filter_cons_of_neg (by simp), filter_cons_of_neg (by simp), hkeep l hb,
          hkeep _ fun hmem => hb (mem_of_mem_take hmem), take_take, Nat.min_self]
      · rw [filter_cons_of_pos (by simpa using hab),
          filter_cons_of_pos (by simpa using hab), take_succ_cons,
          take_succ_cons, ih hl n]

/-- Using an entry, with all that was forgotten still there. -/
theorem touch_take (h : l.Nodup) (n : ℕ) (a : α) : touch n a (l.take n) = touch n a l := by
  cases n with
  | zero => rfl
  | succ n => rw [touch, touch, take_succ_cons, take_succ_cons, take_filter_take h]

/-- What is held after some entries have been used, the last one of `used` last. -/
theorem foldl_touch {n : ℕ} (hl : l.Nodup) (hlength : l.length ≤ n) (used : List α) :
    used.foldl (fun l a => touch n a l) l = (distinct (used.reverse ++ l)).take n := by
  induction used using reverseRecOn with
  | nil =>
    rw [reverse_nil, nil_append, distinct_of_nodup hl, take_of_length_le hlength]
    rfl
  | append_singleton used a ih =>
    rw [foldl_append, ih, reverse_append, foldl_cons, foldl_nil,
      touch_take (nodup_distinct _)]
    rfl

end BeepMusic.Lib
