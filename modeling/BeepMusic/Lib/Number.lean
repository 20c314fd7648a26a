import Mathlib.Data.Rat.Floor

/-!
Numbers of a language that has only floating point, without the rounding: finite
numbers are rationals, and a division by zero gives an infinity or no number, as
in IEEE 754. There is one zero, and it counts as positive.
-/

namespace BeepMusic.Lib

inductive Number
  | num (q : ℚ)
  | inf (negative : Bool)
  | nan
  deriving DecidableEq

namespace Number

instance (n : ℕ) : OfNat Number n := ⟨num (OfNat.ofNat n)⟩

/-- An infinity with the sign of a product or quotient. -/
def infOfSigns (negative negative' : Bool) : Number := inf (negative != negative')

def add : Number → Number → Number
  | num a, num b => num (a + b)
  | inf n, inf m => if n = m then inf n else nan
  | inf n, num _ | num _, inf n => inf n
  | nan, _ | _, nan => nan

def mul : Number → Number → Number
  | num a, num b => num (a * b)
  | inf n, inf m => infOfSigns n m
  | inf n, num a | num a, inf n => if a = 0 then nan else infOfSigns n (decide (a < 0))
  | nan, _ | _, nan => nan

def div : Number → Number → Number
  | num a, num b =>
    if b = 0 then if a = 0 then nan else inf (decide (a < 0)) else num (a / b)
  | num _, inf _ => num 0
  | inf n, num b => infOfSigns n (decide (b < 0))
  | inf _, inf _ => nan
  | nan, _ | _, nan => nan

def lt : Number → Number → Bool
  | num a, num b => decide (a < b)
  | num _, inf m => !m
  | inf n, num _ => n
  | inf n, inf m => n && !m
  | nan, _ | _, nan => false

def floor : Number → Number
  | num a => num ⌊a⌋
  | inf n => inf n
  | nan => nan

instance : Add Number := ⟨add⟩
instance : Mul Number := ⟨mul⟩
instance : Div Number := ⟨div⟩
instance : LT Number := ⟨fun a b => lt a b = true⟩

instance (a b : Number) : Decidable (a < b) := inferInstanceAs (Decidable (_ = _))

@[simp] theorem num_mul_num (a b : ℚ) : num a * num b = num (a * b) := rfl

theorem num_div_num (a : ℚ) {b : ℚ} (hb : b ≠ 0) : num a / num b = num (a / b) := if_neg hb

@[simp] theorem num_lt_num {a b : ℚ} : num a < num b ↔ a < b := decide_eq_true_iff

@[simp] theorem floor_num (a : ℚ) : (num a).floor = num ⌊a⌋ := rfl

theorem ofNat_eq (n : ℕ) : (OfNat.ofNat n : Number) = num (OfNat.ofNat n) := rfl

theorem num_ne_nan (q : ℚ) : num q ≠ nan := Number.noConfusion

variable {a : Number} {q lo hi : ℚ}

/-- A product is finite only if its factors are. -/
theorem mul_eq_num {b : Number} (h : a * b = num q) : ∃ x y, a = num x ∧ b = num y ∧ x * y = q := by
  cases a with
  | num x =>
    cases b with
    | num y => exact ⟨x, y, rfl, rfl, num.inj h⟩
    | inf m =>
      change (if x = 0 then nan else infOfSigns m (decide (x < 0))) = num q at h
      split at h <;> exact absurd h Number.noConfusion
    | nan => exact absurd h Number.noConfusion
  | inf n =>
    cases b with
    | num y =>
      change (if y = 0 then nan else infOfSigns n (decide (y < 0))) = num q at h
      split at h <;> exact absurd h Number.noConfusion
    | inf m | nan => exact absurd h Number.noConfusion
  | nan => exact absurd h Number.noConfusion

theorem num_div_eq_num {v : ℚ} {b : Number} (h : num v / b = num q) (hq : q ≠ 0) :
    ∃ m, b = num m ∧ m ≠ 0 ∧ v / m = q := by
  cases b with
  | num m =>
    by_cases hm : m = 0
    · subst hm
      change (if (0 : ℚ) = 0 then if v = 0 then nan else inf (decide (v < 0)) else num (v / 0)) =
        num q at h
      rw [if_pos rfl] at h
      split at h <;> exact absurd h Number.noConfusion
    · rw [num_div_num v hm] at h
      exact ⟨m, rfl, hm, num.inj h⟩
  | inf m => exact absurd (num.inj h).symm hq
  | nan => exact absurd h Number.noConfusion

/-- Cut off below `lo` and above `hi`. -/
def clamp (lo hi a : Number) : Number := if a < lo then lo else if hi < a then hi else a

/-- A number between two rationals. -/
def Within (lo hi : ℚ) (a : Number) : Prop := ∃ q, a = num q ∧ lo ≤ q ∧ q ≤ hi

theorem within_num (h : lo ≤ q ∧ q ≤ hi) : Within lo hi (num q) := ⟨q, rfl, h⟩

/-- Only what is no number gets through. -/
theorem within_clamp (hle : lo ≤ hi) (ha : a ≠ nan) : Within lo hi (clamp (num lo) (num hi) a) := by
  rw [clamp]
  split_ifs with hlo hhi
  · exact within_num ⟨le_rfl, hle⟩
  · exact within_num ⟨hle, le_rfl⟩
  · cases a with
    | num q => exact within_num ⟨not_lt.mp fun h => hlo (num_lt_num.mpr h),
        not_lt.mp fun h => hhi (num_lt_num.mpr h)⟩
    | inf n =>
      cases n with
      | false => exact absurd rfl hhi
      | true => exact absurd rfl hlo
    | nan => exact absurd rfl ha

/-- What is below the upper bound has not been cut off there. -/
theorem clamp_eq_num (h : clamp (num lo) (num hi) a = num q) (hq : q < hi) :
    a = num q ∨ (a < num lo ∧ q = lo) := by
  rw [clamp] at h
  split_ifs at h with hlo hhi
  · exact .inr ⟨hlo, (num.inj h).symm⟩
  · exact absurd (num.inj h) hq.ne'
  · exact .inl h

theorem clamp_num (h : lo ≤ q ∧ q ≤ hi) : clamp (num lo) (num hi) (num q) = num q := by
  rw [clamp, if_neg (fun hlt => (num_lt_num.mp hlt).not_ge h.1),
    if_neg (fun hlt => (num_lt_num.mp hlt).not_ge h.2)]

end Number

end BeepMusic.Lib
