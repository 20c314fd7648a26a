import Mathlib.Data.List.Basic

/-!
Components that answer every call. One component refines another if some relation
between their states makes each call get the same answer and keeps the relation; then
no sequence of calls tells them apart.
-/

namespace BeepMusic.Lib

/-- How a component answers a call. -/
structure Component (σ ι ο : Type) where
  perform : σ → ι → ο × σ

namespace Component

variable {σ τ ι ο : Type}

/-- The answers to a sequence of calls. -/
def answers (c : Component σ ι ο) : σ → List ι → List ο
  | _, [] => []
  | s, i :: is => (c.perform s i).1 :: answers c (c.perform s i).2 is

/-- The state after a sequence of calls. -/
def after (c : Component σ ι ο) : σ → List ι → σ
  | s, [] => s
  | s, i :: is => after c (c.perform s i).2 is

/-- Related states give the same answer to each call that meets `ok`, and go on to
related states. -/
def Refines (c : Component σ ι ο) (d : Component τ ι ο) (ok : ι → Prop) (R : σ → τ → Prop) :
    Prop :=
  ∀ s t i, R s t → ok i →
    (c.perform s i).1 = (d.perform t i).1 ∧ R (c.perform s i).2 (d.perform t i).2

theorem Refines.run {c : Component σ ι ο} {d : Component τ ι ο} {ok : ι → Prop}
    {R : σ → τ → Prop} (h : c.Refines d ok R) {s : σ} {t : τ} (hst : R s t) {is : List ι}
    (his : ∀ i ∈ is, ok i) : c.answers s is = d.answers t is ∧ R (c.after s is) (d.after t is) := by
  induction is generalizing s t with
  | nil => exact ⟨rfl, hst⟩
  | cons i is ih =>
    obtain ⟨hanswer, hnext⟩ := h s t i hst (his i List.mem_cons_self)
    obtain ⟨hanswers, hlast⟩ := ih hnext fun j hj => his j (List.mem_cons_of_mem i hj)
    refine ⟨?_, hlast⟩
    rw [answers, answers, hanswer, hanswers]

end Component

end BeepMusic.Lib
