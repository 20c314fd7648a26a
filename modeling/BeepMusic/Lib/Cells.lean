import BeepMusic.Lib.Ring

/-!
Memory as a function of the index, and the copying of a number of cells into it.
-/

namespace BeepMusic.Lib.Cells

open List

variable {α : Type} {cell src : ℕ → α} {p m n : ℕ}

/-- The `n` cells from `p` on are written. -/
def copy (cell : ℕ → α) (p n : ℕ) (src : ℕ → α) : ℕ → α :=
  fun j => if p ≤ j ∧ j < p + n then src (j - p) else cell j

theorem copy_of_lt {j : ℕ} (h : j < p) : copy cell p n src j = cell j :=
  if_neg fun hj => by omega

theorem copy_of_mem {j : ℕ} (h : j < n) : copy cell p n src (p + j) = src j := by
  rw [copy, if_pos ⟨Nat.le_add_right p j, by omega⟩, Nat.add_sub_cancel_left]

theorem copy_of_ge {j : ℕ} (h : p + n ≤ j) : copy cell p n src j = cell j :=
  if_neg fun hj => by omega

theorem copy_zero : copy cell p 0 src = cell := by
  funext j
  rw [copy, if_neg (by omega)]

theorem copy_congr {src' : ℕ → α} (h : ∀ i < n, src i = src' i) :
    copy cell p n src = copy cell p n src' := by
  funext j
  simp only [copy]
  split_ifs with hj
  · exact h _ (by omega)
  · rfl

theorem copy_copy :
    copy (copy cell p m src) (p + m) n (fun i => src (m + i)) = copy cell p (m + n) src := by
  funext j
  simp only [copy]
  split_ifs with hbehind hall hall hfirst hfirst
  · congr 1
    omega
  all_goals first | rfl | omega

/-- What is in front of the copy, the copy, and what is behind it. -/
theorem map_range_copy (cell : ℕ → α) (p n : ℕ) (src : ℕ → α) (m : ℕ) :
    (List.range (p + n + m)).map (copy cell p n src) =
      (List.range p).map cell ++ (List.range n).map src ++
        (List.range m).map fun i => cell (p + n + i) := by
  rw [range_add, range_add, map_append, map_append, List.map_map,
    List.map_map]
  congr 1
  · congr 1
    · exact map_congr_left fun j hj => copy_of_lt (mem_range.mp hj)
    · exact map_congr_left fun j hj => copy_of_mem (mem_range.mp hj)
  · exact map_congr_left fun j _ => copy_of_ge (Nat.le_add_right _ j)

theorem written_copy {size : ℕ} (h : p + n ≤ size) :
    Ring.Written cell (copy cell p n src) size p ((List.range n).map src) := by
  intro j hj
  rw [Ring.dist, getElem?_map]
  rcases Nat.lt_or_ge j p with hlt | hge
  · rw [copy_of_lt hlt, if_neg (by omega), getElem?_eq_none (by rw [length_range]; omega)]
    rfl
  · obtain ⟨i, rfl⟩ := Nat.exists_eq_add_of_le hge
    rw [if_pos hge, Nat.add_sub_cancel_left]
    rcases Nat.lt_or_ge i n with hi | hi
    · rw [copy_of_mem hi, getElem?_range hi]
      rfl
    · rw [copy_of_ge (by omega), getElem?_eq_none (by rwa [length_range])]
      rfl

end BeepMusic.Lib.Cells
