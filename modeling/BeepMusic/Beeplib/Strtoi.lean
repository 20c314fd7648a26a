import Mathlib.Tactic.Tauto
import BeepMusic.Lib.Strtoll

/-!
`beep_strtoll`, `beep_strtol` and `beep_strtoi` of `lib/beep/beeplib.c`, where `int` and `long`
have 32 bits. All three call `strtoll`; the narrower ones test its value against the limits
of their own types.
-/

namespace BeepMusic.Beeplib

open Lib

/-- The conversion to `long`. -/
def toLong (val : ℤ) : ℤ := val.bmod (2 ^ 32)

/-- The test after `strtoll`, with the value in the type of `val` and the limits it names. -/
def rejects (s : Bytes) (r : Strtoll) (val max min : ℤ) : Bool :=
  r.erange && (val == max || val == min) || r.erange && val == 0 || r.endptr == s ||
    r.endptr != []

/-- The number that is stored if the answer is true. -/
def beepStrtoll (s : Bytes) : Option ℤ :=
  let r := strtoll s
  if rejects s r r.val (2 ^ 63 - 1) (-2 ^ 63) then none else some r.val

def beepStrtol (s : Bytes) : Option ℤ :=
  let r := strtoll s
  if rejects s r r.val (2 ^ 31 - 1) (-2 ^ 31) then none else some (toLong r.val)

def beepStrtoi (s : Bytes) : Option ℤ :=
  let r := strtoll s
  let val := toLong r.val
  if rejects s r val (2 ^ 31 - 1) (-2 ^ 31) then none
  else if val > 2 ^ 31 - 1 ∨ val < -2 ^ 31 then none
  else some val

/-- The value fits a type of `width` bits. -/
def Fits (width : ℕ) (v : ℤ) : Prop := -2 ^ (width - 1) ≤ v ∧ v < 2 ^ (width - 1)
deriving Decidable

/-- Exactly the literals that fit are accepted, with their values. -/
def Exact (width : ℕ) (s : Bytes) (result : Option ℤ) : Prop :=
  ∀ v, result = some v ↔ Literal s v ∧ Fits width v

variable {s : Bytes} {v val : ℤ}

/-- Without a literal all three answer false. -/
theorem rejects_of_not_literal (h : ∀ v, ¬Literal s v) (val max min : ℤ) :
    rejects s (strtoll s) val max min := by
  unfold strtoll
  split
  · simp [rejects]
  · next v rest hscan =>
    have hrest : rest ≠ [] := fun hrest => h v (scanLiteral_eq_iff.mp (hrest ▸ hscan))
    simp [rejects, hrest]

theorem strtoll_literal (h : Literal s v) : strtoll s =
    ⟨max (-2 ^ 63) (min v (2 ^ 63 - 1)), v < -2 ^ 63 ∨ 2 ^ 63 - 1 < v, []⟩ := by
  rw [strtoll, scanLiteral_eq_iff.mpr h]

theorem rejects_literal (h : Literal s v) (val max min : ℤ) :
    rejects s (strtoll s) val max min ↔ ¬Fits 64 v ∧ (val = max ∨ val = min ∨ val = 0) := by
  have hne : s ≠ [] := by
    rintro rfl
    exact absurd (scanLiteral_eq_iff.mpr h) nofun
  have hfits : ¬Fits 64 v ↔ v < -2 ^ 63 ∨ 2 ^ 63 - 1 < v := by
    rw [Fits]
    omega
  rw [strtoll_literal h, rejects, hfits]
  simp only [Bool.or_eq_true, Bool.and_eq_true, decide_eq_true_eq, beq_iff_eq, hne.symm, or_false,
    bne_self_eq_false, Bool.false_eq_true]
  tauto

theorem literal_iff (h : Literal s v) (w : ℤ) : Literal s w ↔ w = v := by
  refine ⟨fun hw => ?_, fun hw => hw ▸ h⟩
  have heq := (scanLiteral_eq_iff.mpr hw).symm.trans (scanLiteral_eq_iff.mpr h)
  exact (Prod.mk.inj (Option.some.inj heq)).1

theorem exact_some (h : Literal s v) {width : ℕ} :
    Exact width s (some val) ↔ val = v ∧ Fits width v := by
  simp only [Exact, literal_iff h, Option.some.injEq]
  constructor
  · intro hexact
    obtain ⟨rfl, hfits⟩ := (hexact val).mp rfl
    exact ⟨rfl, hfits⟩
  · rintro ⟨rfl, hfits⟩ w
    exact ⟨fun hw => hw ▸ ⟨rfl, hfits⟩, fun hw => hw.1.symm⟩

theorem exact_none (h : Literal s v) {width : ℕ} : Exact width s none ↔ ¬Fits width v := by
  simp [Exact, literal_iff h]

/-- `beep_strtoll` is exact; `beep_strtol` and `beep_strtoi` are unless the literal has a value
that they take modulo `2 ^ 32`. -/
theorem strto_exact (s : Bytes) :
    Exact 64 s (beepStrtoll s) ∧
      (Exact 32 s (beepStrtol s) ↔ ∀ v, Literal s v → Fits 32 v) ∧
      (Exact 32 s (beepStrtoi s) ↔ ∀ v, Literal s v → Fits 32 v ∨ v < -2 ^ 63) := by
  by_cases hlit : ∃ v, Literal s v
  · obtain ⟨v, hv⟩ := hlit
    obtain ⟨hlow, hval⟩ | ⟨hfits, hval⟩ | ⟨hhigh, hval⟩ :
        v < -2 ^ 63 ∧ (strtoll s).val = -2 ^ 63 ∨ Fits 64 v ∧ (strtoll s).val = v ∨
          2 ^ 63 - 1 < v ∧ (strtoll s).val = 2 ^ 63 - 1 := by
      simp only [strtoll_literal hv, Fits]
      omega
    all_goals simp only [beepStrtoll, beepStrtol, beepStrtoi, rejects_literal hv, literal_iff hv,
      forall_eq, toLong, hval]
    · have hnot : ¬Fits 64 v ∧ ¬Fits 32 v := by simp only [Fits]; omega
      simp [hnot, exact_none hv, exact_some hv]
      omega
    · have hrange : ¬(v.bmod (2 ^ 32) > 2 ^ 31 - 1 ∨ v.bmod (2 ^ 32) < -2 ^ 31) := by
        rw [Int.bmod]
        omega
      have hwrap : Fits 32 v → v.bmod (2 ^ 32) = v := by
        rw [Fits, Int.bmod]
        omega
      have hlow : ¬v < -2 ^ 63 := Int.not_lt.mpr hfits.1
      simp only [hfits, hrange, hlow, exact_some hv, not_true, false_and, if_false, or_false]
      tauto
    · have hnot : ¬Fits 64 v ∧ ¬Fits 32 v := by simp only [Fits]; omega
      simp [hnot, exact_none hv, exact_some hv]
      omega
  · have hnone := not_exists.mp hlit
    simp [Exact, beepStrtoll, beepStrtol, beepStrtoi, rejects_of_not_literal hnone, hnone]

/-- The decimal digits of `2 ^ 32`. -/
def wrapped : Bytes := [0x34, 0x32, 0x39, 0x34, 0x39, 0x36, 0x37, 0x32, 0x39, 0x36]

theorem strto_wraps :
    Literal wrapped (2 ^ 32) ∧ beepStrtol wrapped = some 0 ∧ beepStrtoi wrapped = some 0 :=
  ⟨scanLiteral_eq_iff.mp (by decide +kernel), by decide +kernel, by decide +kernel⟩

end BeepMusic.Beeplib
