import Mathlib.Algebra.BigOperators.Group.Finset.Basic
import Mathlib.Data.Int.CardIntervalMod

/-!
Dealing out a list in turn: of `n` hands, the `k`-th gets the entries whose position
leaves the remainder `k`. Each entry comes to one hand, and no hand gets more than one
entry more than another.
-/

namespace BeepMusic.Lib

open List

variable {α : Type}

/-- What the `k`-th of `n` hands gets. -/
def hand (n k : ℕ) (l : List α) : List α :=
  (l.zipIdx.filter fun e => e.2 % n = k).map Prod.fst

/-- The positions of one remainder are counted by `Nat.count`. -/
theorem countP_range_mod (n k len : ℕ) :
    (List.range len).countP (fun i => i % n = k) = len.count fun i => i % n = k := by
  induction len with
  | zero => rfl
  | succ len ih => simp [range_succ, Nat.count_succ, ih, countP_cons]

theorem length_hand {n k : ℕ} (hk : k < n) (l : List α) :
    (hand n k l).length = l.length / n + if k < l.length % n then 1 else 0 := by
  have hmod : (fun i => i % n = k) = fun i => i ≡ k [MOD n] := by
    funext i
    rw [Nat.ModEq, Nat.mod_eq_of_lt hk]
  have hcount : (hand n k l).length = (List.range l.length).countP fun i => i % n = k := by
    have hsnd : l.zipIdx.map Prod.snd = List.range l.length := by
      rw [zipIdx_map_snd, range_eq_range']
    rw [hand, length_map, ← countP_eq_length_filter, ← hsnd, countP_map]
    rfl
  have hcard := Nat.count_modEq_card (r := n) l.length (Nat.zero_lt_of_lt hk) k
  rw [Nat.mod_eq_of_lt hk] at hcard
  rw [hcount, countP_range_mod, ← hcard]
  simp [hmod]

/-- No hand gets more than one entry more than another. -/
theorem length_hand_le {n j k : ℕ} (hj : j < n) (hk : k < n) (l : List α) :
    (hand n j l).length ≤ (hand n k l).length + 1 := by
  rw [length_hand hj, length_hand hk]
  split_ifs <;> omega

/-- Sorting by a key in range `n` loses nothing. -/
theorem flatMap_filter_perm {β : Type} {n : ℕ} (key : β → ℕ) (entries : List β)
    (hkey : ∀ e ∈ entries, key e < n) :
    ((List.range n).flatMap fun k => entries.filter fun e => key e = k).Perm entries := by
  induction entries with
  | nil => simp
  | cons e entries ih =>
    -- one part gets the entry, the parts before and behind it stay as they are
    obtain ⟨before, behind, hrange⟩ := append_of_mem (mem_range.mpr (hkey e (.head _)))
    have hnodup := nodup_range (n := n)
    rw [hrange, nodup_middle, nodup_cons, mem_append, not_or] at hnodup
    have hsame : ∀ ks : List ℕ, key e ∉ ks →
        (ks.flatMap fun k => (e :: entries).filter fun e => key e = k) =
          ks.flatMap fun k => entries.filter fun e => key e = k := by
      intro ks hks
      apply flatMap_congr
      intro k hk
      rw [filter_cons_of_neg]
      simp only [decide_eq_true_eq]
      rintro rfl
      exact hks hk
    have hrest := ih fun e he => hkey e (.tail _ he)
    rw [hrange, flatMap_append, flatMap_cons] at hrest ⊢
    rw [hsame before hnodup.1.1, hsame behind hnodup.1.2, filter_cons_of_pos (by simp),
      cons_append]
    exact perm_middle.trans (hrest.cons e)

theorem hands_perm {n : ℕ} (hn : 0 < n) (l : List α) :
    ((List.range n).flatMap fun k => hand n k l).Perm l := by
  have hall := (flatMap_filter_perm (fun e : α × ℕ => e.2 % n) l.zipIdx
    fun e _ => Nat.mod_lt _ hn).map Prod.fst
  rw [zipIdx_map_fst, map_flatMap] at hall
  exact hall

/-- A list of parts that is known position by position. -/
theorem flatMap_eq_range {β : Type} {f : β → List α} {g : ℕ → List α} {l : List β}
    (h : ∀ k b, l[k]? = some b → f b = g k) :
    l.flatMap f = (List.range l.length).flatMap g := by
  have hmap : l.map f = (List.range l.length).map g := by
    apply ext_getElem?
    intro k
    rw [getElem?_map, getElem?_map]
    rcases Nat.lt_or_ge k l.length with hlt | hge
    · rw [getElem?_range hlt, getElem?_eq_getElem hlt]
      exact congrArg some (h k _ (getElem?_eq_getElem hlt))
    · rw [getElem?_eq_none hge, getElem?_eq_none (by rwa [length_range])]
      rfl
  rw [flatMap_def, flatMap_def, hmap]

/-- An entry of parts without repetition is in one of them. -/
theorem eq_of_mem_parts {β : Type} {f : β → List α} {l : List β} (h : (l.flatMap f).Nodup)
    {b c : β} (hb : b ∈ l) (hc : c ∈ l) {a : α} (hab : a ∈ f b) (hac : a ∈ f c) : b = c := by
  have hsymm : Std.Symm (Function.onFun List.Disjoint f) := ⟨fun _ _ hdisjoint => hdisjoint.symm⟩
  by_contra hne
  exact (nodup_flatMap.mp h).2.forall hb hc hne hab hac

end BeepMusic.Lib
