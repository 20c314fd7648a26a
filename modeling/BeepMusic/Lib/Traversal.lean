import Mathlib.Data.List.Sort
import Mathlib.Data.List.Perm.Basic

/-!
Loops over tables whose entries have no order. A traversal visits every entry
once, in an order the language leaves open; `Enumeration` is one such choice.
Two facts make a program independent of the choice: a loop whose body commutes
reaches the same state in every order, and sorting by a strict total order
forgets the order the list was collected in.
-/

namespace BeepMusic.Lib

open List

/-- A choice of the order in which a traversal meets the entries it is given. -/
structure Enumeration (α : Type) where
  order : List α → List α
  perm : ∀ l, (order l).Perm l

namespace Enumeration

variable {α β : Type} (e : Enumeration α)

/-- Visit the entries in the order in which they are listed. -/
def inOrder : Enumeration α := ⟨id, fun _ => .refl _⟩

@[simp] theorem mem_order {l : List α} {a : α} : a ∈ e.order l ↔ a ∈ l :=
  (e.perm l).mem_iff

@[simp] theorem nodup_order {l : List α} : (e.order l).Nodup ↔ l.Nodup :=
  (e.perm l).nodup_iff

end Enumeration

/-! ### Sets built and thinned by a loop

A set is a table from its elements to `true`; here it is the list of its
elements, without repetitions. -/

section sets

variable {α β γ : Type}

/-- A loop over two accumulators that do not look at each other. -/
theorem foldl_pair (f : β → α → β) (g : γ → α → γ) (l : List α) (b : β) (c : γ) :
    l.foldl (fun (st : β × γ) a => (f st.1 a, g st.2 a)) (b, c) = (l.foldl f b, l.foldl g c) := by
  induction l generalizing b c with
  | nil => rfl
  | cons a l ih => exact ih (f b a) (g c a)

theorem foldl_append_map (f : α → β) (l : List α) (acc : List β) :
    l.foldl (fun acc a => acc ++ [f a]) acc = acc ++ l.map f := by
  induction l generalizing acc with
  | nil => simp
  | cons a l ih => simp [ih]

variable [DecidableEq β] (p : α → Prop) [DecidablePred p] (f : α → β)

variable {l : List α}

theorem mem_foldl_insert {set : List β} {x : β} :
    x ∈ l.foldl (fun set a => if p a then set.insert (f a) else set) set ↔
      x ∈ set ∨ ∃ a ∈ l, p a ∧ f a = x := by
  induction l generalizing set with
  | nil => simp
  | cons a l ih =>
    rw [foldl_cons, ih]
    by_cases ha : p a
    · simp only [ha, if_true, mem_insert_iff, mem_cons, exists_eq_or_imp, true_and]
      rw [or_comm (a := x = f a), or_assoc, eq_comm (a := x)]
    · simp [ha]

theorem nodup_foldl_insert {set : List β} (h : set.Nodup) :
    (l.foldl (fun set a => if p a then set.insert (f a) else set) set).Nodup := by
  induction l generalizing set with
  | nil => exact h
  | cons a l ih =>
    rw [foldl_cons]
    apply ih
    split
    · exact h.insert
    · exact h

variable [DecidableEq α]

theorem nodup_foldl_erase {set : List α} (h : set.Nodup) :
    (l.foldl (fun set a => if p a then set.erase a else set) set).Nodup := by
  induction l generalizing set with
  | nil => exact h
  | cons a l ih =>
    rw [foldl_cons]
    apply ih
    split
    · exact h.erase a
    · exact h

theorem mem_foldl_erase {set : List α} (h : set.Nodup) {x : α} :
    x ∈ l.foldl (fun set a => if p a then set.erase a else set) set ↔
      x ∈ set ∧ ¬(x ∈ l ∧ p x) := by
  induction l generalizing set with
  | nil => simp
  | cons a l ih =>
    rw [foldl_cons]
    by_cases ha : p a
    · rw [if_pos ha, ih (h.erase a), h.mem_erase_iff, mem_cons]
      by_cases hx : x = a
      · simp [hx, ha]
      · simp [hx]
    · rw [if_neg ha, ih h, mem_cons]
      by_cases hx : x = a
      · simp [hx, ha]
      · simp [hx]

end sets

/-! ### Counting in a list without repetitions -/

theorem countP_eq_one_iff {α : Type} {l : List α} (hl : l.Nodup) (p : α → Bool) :
    l.countP p = 1 ↔ (∃ a ∈ l, p a = true) ∧
      ∀ a ∈ l, ∀ b ∈ l, p a = true → p b = true → a = b := by
  have hfilter : (l.filter p).Nodup := hl.filter p
  rw [countP_eq_length_filter, length_eq_one_iff]
  constructor
  · rintro ⟨a, ha⟩
    have hmem {b : α} (hb : b ∈ l) (hpb : p b = true) : b = a := by
      have : b ∈ l.filter p := mem_filter.mpr ⟨hb, hpb⟩
      simpa [ha] using this
    have ha' : a ∈ l.filter p := by simp [ha]
    refine ⟨⟨a, mem_filter.mp ha'⟩, ?_⟩
    intro b hb d hd hpb hpd
    rw [hmem hb hpb, hmem hd hpd]
  · rintro ⟨⟨a, ha, hpa⟩, huniq⟩
    refine ⟨a, perm_singleton.mp ?_⟩
    rw [perm_ext_iff_of_nodup hfilter (nodup_singleton a)]
    intro b
    rw [mem_filter, mem_singleton]
    constructor
    · rintro ⟨hb, hpb⟩
      exact huniq b hb a ha hpb hpa
    · rintro rfl
      exact ⟨ha, hpa⟩

/-- The element a search returns stands no later than any other match. -/
theorem exists_le_of_find?_eq_some {α : Type} {l : List α} {p : α → Bool} {a b : α} {j : ℕ}
    (hfind : l.find? p = some a) (hb : l[j]? = some b) (hpb : p b = true) :
    ∃ k ≤ j, l[k]? = some a := by
  obtain ⟨_, k, hk, rfl, hbefore⟩ := find?_eq_some_iff_getElem.mp hfind
  refine ⟨k, ?_, getElem?_eq_getElem hk⟩
  by_contra hlt
  obtain ⟨hj, rfl⟩ := List.getElem?_eq_some_iff.mp hb
  have := hbefore j (by omega)
  simp [hpb] at this

/-! ### Sorting by a strict comparison -/

/-- The comparison functions for which the result of a sort is determined by
the elements alone. -/
structure StrictTotal {α : Type} (lt : α → α → Bool) : Prop where
  irrefl : ∀ a, lt a a = false
  trans : ∀ a b c, lt a b = true → lt b c = true → lt a c = true
  connected : ∀ a b, lt a b = false → lt b a = false → a = b

/-- Sort a list by a strict comparison. -/
def tableSort {α : Type} (lt : α → α → Bool) (l : List α) : List α :=
  l.insertionSort fun a b => lt b a = false

section tableSort

variable {α : Type} {lt : α → α → Bool}

theorem tableSort_perm (lt : α → α → Bool) (l : List α) : (tableSort lt l).Perm l :=
  perm_insertionSort _ l

variable {l : List α}

@[simp] theorem mem_tableSort {a : α} : a ∈ tableSort lt l ↔ a ∈ l :=
  (tableSort_perm lt l).mem_iff

@[simp] theorem length_tableSort (l : List α) : (tableSort lt l).length = l.length :=
  (tableSort_perm lt l).length_eq

@[simp] theorem nodup_tableSort : (tableSort lt l).Nodup ↔ l.Nodup :=
  (tableSort_perm lt l).nodup_iff

variable (h : StrictTotal lt)
include h

theorem StrictTotal.asymm {a b : α} (hab : lt a b = true) : lt b a = false := by
  by_contra hba
  have haa := h.trans a b a hab (by simpa using hba)
  simp [h.irrefl a] at haa

theorem tableSort_pairwise (l : List α) : (tableSort lt l).Pairwise fun a b => lt b a = false := by
  have total : Std.Total fun a b : α => lt b a = false := by
    refine ⟨fun a b => ?_⟩
    cases hab : lt a b with
    | false => exact .inr rfl
    | true => exact .inl (h.asymm hab)
  have trans : IsTrans α fun a b : α => lt b a = false := by
    refine ⟨fun a b c hba hcb => ?_⟩
    by_contra hca
    have hca : lt c a = true := by simpa using hca
    cases hab : lt a b with
    | false => exact absurd hcb (by simp [h.connected a b hab hba ▸ hca])
    | true => exact absurd (h.trans c a b hca hab) (by simp [hcb])
  exact pairwise_insertionSort _ l

/-- A list without repetitions comes out strictly increasing. -/
theorem tableSort_pairwise_lt (hl : l.Nodup) :
    (tableSort lt l).Pairwise fun a b => lt a b = true := by
  have hnodup : (tableSort lt l).Pairwise (· ≠ ·) := nodup_tableSort.mpr hl
  refine (tableSort_pairwise h l).imp₂ (fun a b hba hne => ?_) hnodup
  by_contra hab
  exact hne (h.connected a b (by simpa using hab) hba)

/-- The result depends only on which elements the list has. -/
theorem tableSort_eq_of_perm {l₁ l₂ : List α} (hp : l₁.Perm l₂) :
    tableSort lt l₁ = tableSort lt l₂ := by
  refine List.Perm.eq_of_pairwise (fun a b _ _ hba hab => h.connected a b hab hba)
    (tableSort_pairwise h l₁) (tableSort_pairwise h l₂) ?_
  exact (tableSort_perm lt l₁).trans (hp.trans (tableSort_perm lt l₂).symm)

/-- In a strictly increasing list the position of an element is the number of
elements that precede it in the order. -/
theorem countP_lt_of_getElem? (hl : l.Pairwise fun a b => lt a b = true) {k : ℕ} {x : α}
    (hx : l[k]? = some x) : l.countP (lt · x) = k := by
  induction l generalizing k with
  | nil => simp at hx
  | cons a l ih =>
    rw [pairwise_cons] at hl
    cases k with
    | zero =>
      simp only [getElem?_cons_zero, Option.some.injEq] at hx
      subst hx
      have hzero : l.countP (lt · a) = 0 :=
        countP_eq_zero.mpr fun b hb => by simp [h.asymm (hl.1 b hb)]
      simp [hzero, h.irrefl a]
    | succ k =>
      have hax : lt a x = true := hl.1 x (mem_of_getElem? hx)
      simp [hax, ih hl.2 hx]

end tableSort

/-! ### Loops that can fail -/

section failing

variable {α σ ε : Type} {f : σ → α → Except ε σ} {P : σ → Prop}

variable {β : Type} {l : List α} {s : σ}

theorem bind_eq_ok {x : Except ε α} {g : α → Except ε β} {b : β} :
    (x >>= g) = .ok b ↔ ∃ a, x = .ok a ∧ g a = .ok b := by
  cases x <;> simp [bind, Except.bind]

theorem map_eq_ok {x : Except ε α} {g : α → β} {b : β} :
    x.map g = .ok b ↔ ∃ a, x = .ok a ∧ g a = b := by
  cases x <;> simp [Except.map]

/-- A loop whose body never fails in a state with `P`. `Q a` is what the body does
for the entry `a`, and is not undone for other entries. -/
theorem foldlM_visits (Q : α → σ → Prop) (hs : P s)
    (hstep : ∀ a ∈ l, ∀ s, P s → ∃ s', f s a = .ok s' ∧ P s' ∧ Q a s' ∧ ∀ b, Q b s → Q b s') :
    ∃ s', l.foldlM f s = .ok s' ∧ P s' ∧ (∀ a ∈ l, Q a s') ∧ ∀ b, Q b s → Q b s' := by
  induction l generalizing s with
  | nil => exact ⟨s, rfl, hs, by simp, fun _ h => h⟩
  | cons a l ih =>
    obtain ⟨mid, hmid, hP, hQ, hkeep⟩ := hstep a mem_cons_self s hs
    obtain ⟨s', hrun, hP', hall, hkeep'⟩ :=
      ih hP fun b hb => hstep b (mem_cons_of_mem a hb)
    refine ⟨s', ?_, hP', ?_, fun b hb => hkeep' b (hkeep b hb)⟩
    · rw [foldlM_cons, bind_eq_ok]
      exact ⟨mid, hmid, hrun⟩
    · intro b hb
      rcases mem_cons.mp hb with rfl | hb
      · exact hkeep' b hQ
      · exact hall b hb

theorem foldlM_ok (hs : P s) (hstep : ∀ a ∈ l, ∀ s, P s → ∃ s', f s a = .ok s' ∧ P s') :
    ∃ s', l.foldlM f s = .ok s' ∧ P s' := by
  obtain ⟨s', hrun, hP, -⟩ := foldlM_visits (fun _ _ => True) hs fun a ha s hs => by
    obtain ⟨s', hrun, hP⟩ := hstep a ha s hs
    exact ⟨s', hrun, hP, trivial, fun _ _ => trivial⟩
  exact ⟨s', hrun, hP⟩

/-- What the body preserves when it does not fail. -/
theorem foldlM_invariant {s' : σ} (hs : P s) (hrun : l.foldlM f s = .ok s')
    (hstep : ∀ a ∈ l, ∀ s s', P s → f s a = .ok s' → P s') : P s' := by
  induction l generalizing s with
  | nil => exact Except.ok.inj hrun ▸ hs
  | cons a l ih =>
    rw [foldlM_cons, bind_eq_ok] at hrun
    obtain ⟨mid, hmid, hrest⟩ := hrun
    exact ih (hstep a mem_cons_self s mid hs hmid) hrest
      fun b hb => hstep b (mem_cons_of_mem a hb)

/-- A loop whose body changes only what is read at its own key, over keys that are
all different, changes each of them once. -/
theorem foldlM_pointwise [DecidableEq α] (read : σ → α → β) (g : β → β) (hl : l.Nodup) {s' : σ}
    (hrun : l.foldlM f s = .ok s')
    (hstep : ∀ s s' a, f s a = .ok s' →
      read s' a = g (read s a) ∧ ∀ b, b ≠ a → read s' b = read s b) (b : α) :
    read s' b = if b ∈ l then g (read s b) else read s b := by
  induction l generalizing s with
  | nil =>
    obtain rfl := Except.ok.inj hrun
    simp
  | cons a l ih =>
    rw [foldlM_cons, bind_eq_ok] at hrun
    obtain ⟨mid, hmid, hrest⟩ := hrun
    obtain ⟨hself, hother⟩ := hstep s mid a hmid
    have hmem := nodup_cons.mp hl
    rw [ih hmem.2 hrest]
    by_cases hb : b = a
    · subst hb
      rw [if_neg hmem.1, hself, if_pos mem_cons_self]
    · simp [hb, hother b hb]

end failing

end BeepMusic.Lib
