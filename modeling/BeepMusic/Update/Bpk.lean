import Mathlib.Data.Char
import Mathlib.Data.List.Lex
import Mathlib.Order.Lattice

/-!
The order in which `bpk.py` puts the paths of a package. `files_cmp` compares two paths as
their directories are compared: a file comes before what lies in subdirectories beside it,
and the files of one directory are equal to it.
-/

namespace BeepMusic.Update.Bpk

open List

section Components

variable {α : Type} [LinearOrder α]

/-- The loop of `files_cmp` and what follows it. What is left behind the first difference is
compared by its length if one of the paths ends there; else the components that differ are. -/
def componentsCmp : List α → List α → Ordering
  | x :: a, y :: b =>
    if x = y then componentsCmp a b
    else if a = [] ∨ b = [] then compare a.length b.length
    else compare x y
  | a, b => compare a.length b.length

theorem componentsCmp_swap (a b : List α) : componentsCmp a b = (componentsCmp b a).swap := by
  have hlength : compare a.length b.length = (compare b.length a.length).swap :=
    Std.OrientedCmp.eq_swap
  induction a generalizing b with
  | nil => cases b <;> exact hlength
  | cons x a ih =>
    cases b with
    | nil => exact hlength
    | cons y b =>
      simp only [componentsCmp, @eq_comm _ y x, @or_comm (b = [])]
      split_ifs
      · exact ih b Std.OrientedCmp.eq_swap
      · exact Std.OrientedCmp.eq_swap
      · exact Std.OrientedCmp.eq_swap

theorem componentsCmp_gt {a b : List α} (ha : a ≠ []) (hb : b ≠ []) :
    componentsCmp a b = .gt ↔ b.dropLast < a.dropLast := by
  induction a generalizing b with
  | nil => exact absurd rfl ha
  | cons x a ih =>
    obtain ⟨y, b, rfl⟩ := exists_cons_of_ne_nil hb
    rcases a with - | ⟨x', a⟩
    · cases b <;> simp [componentsCmp, compare_gt_iff_gt]
    · rcases b with - | ⟨y', b⟩
      · simp [componentsCmp, compare_gt_iff_gt]
      · -- neither path ends here: the directories have these components
        have hrest := @ih (y' :: b) (cons_ne_nil _ _) (cons_ne_nil _ _)
        rw [componentsCmp, dropLast_cons_cons, dropLast_cons_cons,
          cons_lt_cons_iff]
        by_cases hxy : x = y
        · simp [hxy, hrest]
        · simp [hxy, Ne.symm hxy, compare_gt_iff_gt]

end Components

/-- What `split` gives for a path. -/
def components (path : List Char) : List (List Char) := path.splitOn '/'

def filesCmp (a b : List Char) : Ordering := componentsCmp (components a) (components b)

/-- The directory that a path lies in. -/
def dir (path : List Char) : List (List Char) := (components path).dropLast

/-- `sort_files`, for `files`. -/
def sortFiles (files : List (List Char)) : List (List Char) :=
  files.mergeSort fun a b => (filesCmp a b).isLE

/-- `sort_files`, for `removes`. -/
def sortRemoves (removes : List (List Char)) : List (List Char) := (sortFiles removes).reverse

/-- What `a` names is a proper ancestor of what `b` names. -/
def Above (a b : List (List Char)) : Prop := a <+: b ∧ a ≠ b

theorem filesCmp_isLE (a b : List Char) : (filesCmp a b).isLE ↔ dir a ≤ dir b := by
  have hgt := componentsCmp_gt (splitOn_ne_nil '/' a) (splitOn_ne_nil '/' b)
  rw [Ordering.isLE_iff_ne_gt, ← not_lt]
  exact not_congr hgt

instance : Std.TransCmp filesCmp where
  eq_swap := componentsCmp_swap _ _
  isLE_trans hab hbc :=
    (filesCmp_isLE _ _).mpr (((filesCmp_isLE _ _).mp hab).trans ((filesCmp_isLE _ _).mp hbc))

theorem Above.not_le {a b : List (List Char)} (h : Above a b) : ¬b ≤ a :=
  fun hle => h.2 (le_antisymm (not_lt.mp (List.not_lt.mpr h.1.le)) hle)

theorem Above.dir {a b : List Char} (h : Above (components a) (components b)) :
    Above (dir a) (dir b) := by
  obtain ⟨⟨rest, hrest⟩, hne⟩ := h
  have hnonempty : rest ≠ [] := fun hnil => hne (by rw [← hrest, hnil, append_nil])
  have hdir : Bpk.dir b = components a ++ rest.dropLast := by
    rw [Bpk.dir, ← hrest, dropLast_append_of_ne_nil hnonempty]
  refine ⟨(List.dropLast_prefix _).trans ⟨rest.dropLast, hdir.symm⟩, fun heq => ?_⟩
  have hlength := congrArg List.length (heq.trans hdir)
  have hpos := length_pos_iff.mpr (splitOn_ne_nil '/' a)
  rw [Bpk.dir, length_dropLast, length_append, components] at hlength
  omega

theorem sortFiles_pairwise (files : List (List Char)) :
    (sortFiles files).Pairwise fun p q => dir p ≤ dir q := by
  have htotal : ∀ a b, (filesCmp a b).isLE || (filesCmp b a).isLE := by
    intro a b
    rw [Bool.or_eq_true, filesCmp_isLE, filesCmp_isLE]
    exact le_total _ _
  exact (pairwise_mergeSort (fun _ _ _ => Std.TransCmp.isLE_trans) htotal files).imp
    (filesCmp_isLE _ _).mp

/-- `files_cmp` is a total preorder; in `files` nothing stands before an entry of a directory
above its own, and in `removes` nothing stands before what lies under it. -/
theorem sort_files_ordered :
    Std.TransCmp filesCmp ∧
      (∀ files, (sortFiles files).Perm files ∧
        (sortFiles files).Pairwise fun p q => ¬Above (dir q) (dir p)) ∧
      ∀ removes, (sortRemoves removes).Perm removes ∧
        (sortRemoves removes).Pairwise fun p q => ¬Above (components p) (components q) := by
  refine ⟨inferInstance, fun files => ⟨mergeSort_perm _ _, ?_⟩, fun removes => ⟨?_, ?_⟩⟩
  · exact (sortFiles_pairwise files).imp fun hle habove => habove.not_le hle
  · exact (reverse_perm _).trans (mergeSort_perm _ _)
  · exact pairwise_reverse.mpr
      ((sortFiles_pairwise removes).imp fun hle habove => habove.dir.not_le hle)

end BeepMusic.Update.Bpk
