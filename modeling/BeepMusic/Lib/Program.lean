import Mathlib.Logic.Basic

/-!
Programs with a state that can fail, and a logic for them. A failure keeps the state that
the program has reached, and a specification says of such a state what it says of every
failure: that there was a reason for it.
-/

namespace BeepMusic.Lib

/-- A program: a result or an error, and the state after it. -/
def Program (σ ε α : Type) := σ → Except ε α × σ

namespace Program

variable {σ ε α β : Type}

/-- Go on after a result. -/
def andThen (f : α → Program σ ε β) : Except ε α × σ → Except ε β × σ
  | (.ok a, s) => f a s
  | (.error e, s) => (.error e, s)

instance : Monad (Program σ ε) where
  pure a := fun s => (.ok a, s)
  bind x f := fun s => andThen f (x s)

def fail (e : ε) : Program σ ε α := fun s => (.error e, s)

/-- Go on only if a condition holds. -/
def require (cond : Bool) (e : ε) : Program σ ε Unit := if cond then pure () else fail e

/-- What holds after a program: `Q` of its result, or `E` if it has failed. -/
def Outcome (E : σ → Prop) (Q : α → σ → Prop) : Except ε α × σ → Prop
  | (.ok a, s) => Q a s
  | (.error _, s) => E s

theorem Outcome.ok {E : σ → Prop} {Q : α → σ → Prop} {r : Except ε α × σ} {a : α}
    (h : Outcome E Q r) (hok : r.1 = .ok a) : Q a r.2 := by
  obtain ⟨result, s⟩ := r
  obtain rfl : result = .ok a := hok
  exact h

theorem Outcome.exists_ok {E : σ → Prop} {Q : α → σ → Prop} {r : Except ε α × σ}
    (h : Outcome E Q r) (hE : ¬E r.2) : ∃ a, r.1 = .ok a := by
  obtain ⟨result, s⟩ := r
  cases result with
  | ok a => exact ⟨a, rfl⟩
  | error e => exact absurd h hE

/-- From states with `P` the program has the result `Q`, or fails with `E`. -/
def Ensures (E P : σ → Prop) (x : Program σ ε α) (Q : α → σ → Prop) : Prop :=
  ∀ s, P s → Outcome E Q (x s)

namespace Ensures

variable {E P P' : σ → Prop} {x : Program σ ε α} {Q Q' : α → σ → Prop}

theorem pure {a : α} (h : ∀ s, P s → Q a s) :
    Ensures E P (Pure.pure a : Program σ ε α) Q := h

theorem bind {f : α → Program σ ε β} {R : β → σ → Prop} (hx : Ensures E P x Q)
    (hf : ∀ a, Ensures E (Q a) (f a) R) : Ensures E P (x >>= f) R := by
  intro s hs
  have houtcome := hx s hs
  show Outcome E R (andThen f (x s))
  cases hxs : x s with
  | mk result s' =>
    rw [hxs] at houtcome
    cases result with
    | ok a => exact hf a s' houtcome
    | error e => exact houtcome

theorem require {cond : Bool} {e : ε} {R : Unit → σ → Prop}
    (hpos : ∀ s, P s → cond = true → R () s) (hneg : ∀ s, P s → cond = false → E s) :
    Ensures E P (Program.require cond e) R := by
  intro s hs
  cases cond with
  | true => exact hpos s hs rfl
  | false => exact hneg s hs rfl

theorem require_bind {cond : Bool} {e : ε} {f : Unit → Program σ ε α}
    (hneg : ∀ s, P s → cond = false → E s) (hf : Ensures E P (f ()) Q) :
    Ensures E P (Program.require cond e >>= f) Q :=
  (require (fun _ hs _ => hs) hneg).bind fun _ => hf

theorem mono (h : Ensures E P x Q) (hP : ∀ s, P' s → P s) (hQ : ∀ a s, Q a s → Q' a s) :
    Ensures E P' x Q' := by
  intro s hs
  have houtcome := h s (hP s hs)
  cases hxs : x s with
  | mk result s' =>
    rw [hxs] at houtcome
    cases result with
    | ok a => exact hQ a s' houtcome
    | error e => exact houtcome

end Ensures

end Program

end BeepMusic.Lib
