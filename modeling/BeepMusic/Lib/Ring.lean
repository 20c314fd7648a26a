import Mathlib.Data.List.Basic

/-!
Ring memory: cells that are numbered below some size, and pointers that wrap. What
lies between two pointers is a list, and writing behind it appends to that list as
long as the pointers do not meet.
-/

namespace BeepMusic.Lib.Ring

open List

variable {α : Type} {size : ℕ}

/-- A pointer, moved on. -/
def advance (size p n : ℕ) : ℕ := if size ≤ p + n then p + n - size else p + n

/-- How far it is from one pointer to the next. -/
def dist (size a b : ℕ) : ℕ := if a ≤ b then b - a else b + size - a

/-- The cells from a pointer on. -/
def segment (cell : ℕ → α) (size p n : ℕ) : List α :=
  (List.range n).map fun i => cell (advance size p i)

variable {p n m a b : ℕ} {cell cell' : ℕ → α} {values : List α}

theorem advance_lt (hp : p < size) (hn : n ≤ size) : advance size p n < size := by
  rw [advance]
  split_ifs <;> omega

theorem advance_advance (hp : p < size) (hmn : m + n ≤ size) :
    advance size (advance size p m) n = advance size p (m + n) := by
  simp only [advance]
  split_ifs <;> omega

theorem advance_mul {k : ℕ} (hk : 0 < k) (p n : ℕ) :
    advance (k * size) (k * p) (k * n) = k * advance size p n := by
  simp only [advance, ← Nat.mul_add, Nat.mul_le_mul_left_iff hk]
  split_ifs
  · rw [Nat.mul_sub]
  · rfl

theorem dist_mul {k : ℕ} (hk : 0 < k) (a b : ℕ) :
    dist (k * size) (k * a) (k * b) = k * dist size a b := by
  simp only [dist, Nat.mul_le_mul_left_iff hk]
  split_ifs
  · rw [Nat.mul_sub]
  · rw [Nat.mul_sub, Nat.mul_add]

theorem advance_eq_mod (hp : p < size) (hn : n ≤ size) : advance size p n = (p + n) % size := by
  rw [advance]
  split_ifs with hend
  · rw [Nat.mod_eq_sub_mod hend, Nat.mod_eq_of_lt (by omega)]
  · rw [Nat.mod_eq_of_lt (by omega)]

theorem advance_dist (ha : a < size) (hb : b < size) : advance size a (dist size a b) = b := by
  simp only [advance, dist]
  split_ifs <;> omega

theorem dist_lt (ha : a < size) (hb : b < size) : dist size a b < size := by
  rw [dist]
  split_ifs <;> omega

/-- Moving the far pointer on, as long as it does not get to the near one. -/
theorem dist_advance_right (ha : a < size) (hb : b < size) (hn : dist size a b + n < size) :
    dist size a (advance size b n) = dist size a b + n := by
  simp only [advance, dist] at *
  split_ifs at * <;> omega

/-- Moving the near pointer on, as long as it does not pass the far one. -/
theorem dist_advance_left (ha : a < size) (hb : b < size) (hn : n ≤ dist size a b) :
    dist size (advance size a n) b = dist size a b - n := by
  simp only [advance, dist] at *
  split_ifs at * <;> omega

theorem length_segment (cell : ℕ → α) (size p n : ℕ) : (segment cell size p n).length = n := by
  rw [segment, length_map, length_range]

theorem segment_add (hp : p < size) (hmn : m + n ≤ size) :
    segment cell size p (m + n) =
      segment cell size p m ++ segment cell size (advance size p m) n := by
  simp only [segment, range_add, map_append, List.map_map]
  congr 1
  apply map_congr_left
  intro i hi
  have hlt := mem_range.mp hi
  rw [Function.comp_apply, advance_advance hp (by omega)]

theorem take_drop_segment {len : ℕ} (hp : p < size) (hmn : m + n ≤ len) (hlen : len ≤ size) :
    ((segment cell size p len).drop m).take n = segment cell size (advance size p m) n := by
  obtain ⟨k, rfl⟩ : ∃ k, len = m + (n + k) := ⟨len - (m + n), by omega⟩
  have hadvance : advance size p m < size := advance_lt hp (by omega)
  rw [segment_add hp hlen, drop_left' (length_segment _ _ _ _),
    segment_add hadvance (by omega), take_left' (length_segment _ _ _ _)]

/-- What lies between two pointers, after moving the near one on. -/
theorem drop_segment_dist (ha : a < size) (hb : b < size) (hn : n ≤ dist size a b) :
    (segment cell size a (dist size a b)).drop n =
      segment cell size (advance size a n) (dist size (advance size a n) b) := by
  have hlt := dist_lt ha hb
  have hsplit : dist size a b = n + (dist size a b - n) := by omega
  rw [dist_advance_left ha hb hn, hsplit, segment_add ha (by omega),
    drop_left' (length_segment _ _ _ _), Nat.add_sub_cancel_left]

/-- The pointer that is as much nearer to a third one. -/
theorem advance_dist_sub {c : ℕ} (ha : a < size) (hb : b < size) (hc : c < size)
    (hle : dist size b c ≤ dist size a c) : advance size a (dist size a c - dist size b c) = b := by
  simp only [advance, dist] at *
  split_ifs at * <;> omega

/-- The values stand from `w` on, and the other cells are as before. -/
def Written (cell cell' : ℕ → α) (size w : ℕ) (values : List α) : Prop :=
  ∀ j < size, cell' j = values[dist size w j]?.getD (cell j)

theorem Written.segment_before (h : Written cell cell' size (advance size p n) values)
    (hp : p < size) (hfit : n + values.length ≤ size) :
    segment cell' size p n = segment cell size p n := by
  apply map_congr_left
  intro i hi
  have hlt := mem_range.mp hi
  have hfar : values.length ≤ dist size (advance size p n) (advance size p i) := by
    simp only [advance, dist]
    split_ifs <;> omega
  rw [h _ (advance_lt hp (by omega)), getElem?_eq_none hfar, Option.getD_none]

theorem Written.segment_values {w : ℕ} (h : Written cell cell' size w values) (hw : w < size)
    (hfit : values.length ≤ size) : segment cell' size w values.length = values := by
  apply ext_getElem?
  intro i
  rcases Nat.lt_or_ge i values.length with hlt | hge
  · have hnear : dist size w (advance size w i) = i := by
      simp only [advance, dist]
      split_ifs <;> omega
    rw [segment, getElem?_map, getElem?_range hlt, Option.map_some,
      h _ (advance_lt hw (by omega)), hnear, getElem?_eq_getElem hlt, Option.getD_some]
  · rw [getElem?_eq_none (by rwa [length_segment]), getElem?_eq_none hge]

theorem Written.segment_append (h : Written cell cell' size (advance size p n) values)
    (hp : p < size) (hfit : n + values.length ≤ size) :
    segment cell' size p (n + values.length) = segment cell size p n ++ values := by
  rw [segment_add hp hfit, h.segment_before hp hfit,
    h.segment_values (advance_lt hp (by omega)) (by omega)]

/-- Writing at the far pointer, and moving it on. -/
theorem Written.segment_dist {w : ℕ} (h : Written cell cell' size w values) (hp : p < size)
    (hw : w < size) (hfit : dist size p w + values.length < size) :
    segment cell' size p (dist size p (advance size w values.length)) =
      segment cell size p (dist size p w) ++ values := by
  rw [← advance_dist hp hw] at h
  rw [dist_advance_right hp hw hfit, h.segment_append hp (by omega)]

end BeepMusic.Lib.Ring
