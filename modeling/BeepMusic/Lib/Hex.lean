import Mathlib.Data.Nat.Digits.Defs
import BeepMusic.Lib.Word

/-!
Numbers and bytes as text of hexadecimal digits. A number is written with at least some
width, and with more digits if it needs them.
-/

namespace BeepMusic.Lib

open List

/-- The digit of a value below 16, in lower case. -/
def hexDigit (d : ℕ) : UInt8 := if d < 10 then UInt8.ofNat (48 + d) else UInt8.ofNat (87 + d)

/-- The value of a digit, in either case. -/
def hexVal (c : UInt8) : Option ℕ :=
  if 0x30 ≤ c ∧ c ≤ 0x39 then some (c.toNat - 48)
  else if 0x61 ≤ c ∧ c ≤ 0x66 then some (c.toNat - 87)
  else if 0x41 ≤ c ∧ c ≤ 0x46 then some (c.toNat - 55)
  else none

/-- At least `width` digits. -/
def formatHex : (width n : ℕ) → Bytes
  | 0, n => (Nat.digits 16 n).reverse.map hexDigit
  | width + 1, n => formatHex width (n / 16) ++ [hexDigit (n % 16)]

/-- Two digits for each byte. -/
def hexEncode (bs : Bytes) : Bytes :=
  bs.flatMap fun b => [hexDigit (b.toNat / 16), hexDigit (b.toNat % 16)]

theorem hexEncode_append (as bs : Bytes) : hexEncode (as ++ bs) = hexEncode as ++ hexEncode bs :=
  flatMap_append

theorem hexVal_lt {c : UInt8} {v : ℕ} (h : hexVal c = some v) : v < 16 := by
  unfold hexVal at h
  simp only [UInt8.le_iff_toNat_le, UInt8.reduceToNat] at h
  split_ifs at h <;> cases h <;> omega

theorem hexVal_hexDigit {d : ℕ} (h : d < 16) : hexVal (hexDigit d) = some d := by
  have hall : ∀ d : Fin 16, hexVal (hexDigit d) = some d.val := by decide
  exact hall ⟨d, h⟩

theorem length_formatHex (width n : ℕ) :
    (formatHex width n).length = width + (Nat.digits 16 (n / 16 ^ width)).length := by
  induction width generalizing n with
  | zero => simp [formatHex]
  | succ width ih =>
    rw [formatHex, length_append, ih, length_singleton, Nat.div_div_eq_div_mul,
      Nat.pow_succ']
    omega

variable {width n : ℕ}

theorem length_formatHex_of_lt (h : n < 16 ^ width) : (formatHex width n).length = width := by
  rw [length_formatHex, Nat.div_eq_of_lt h, Nat.digits_zero, length_nil, Nat.add_zero]

/-- A number that is too large for the width gets more digits. -/
theorem lt_length_formatHex (h : 16 ^ width ≤ n) : width < (formatHex width n).length := by
  have hpos : 0 < n / 16 ^ width := Nat.div_pos h (by positivity)
  have hdigits : Nat.digits 16 (n / 16 ^ width) ≠ [] :=
    Nat.digits_ne_nil_iff_ne_zero.mpr (Nat.ne_of_gt hpos)
  have := length_pos_iff.mpr hdigits
  rw [length_formatHex]
  omega

theorem mem_formatHex {c : UInt8} (h : c ∈ formatHex width n) : ∃ d < 16, c = hexDigit d := by
  induction width generalizing n with
  | zero =>
    obtain ⟨d, hd, rfl⟩ := List.mem_map.mp h
    exact ⟨d, Nat.digits_lt_base (by decide) (mem_reverse.mp hd), rfl⟩
  | succ width ih =>
    rcases mem_append.mp h with h | h
    · exact ih h
    · exact ⟨n % 16, Nat.mod_lt n (by decide), mem_singleton.mp h⟩

/-- A number that fits into some bytes is written as these bytes are. -/
theorem formatHex_eq_hexEncode (h : n < 256 ^ width) :
    formatHex (2 * width) n = hexEncode (toBytes width n) := by
  induction width generalizing n with
  | zero =>
    obtain rfl : n = 0 := by simpa using h
    simp [formatHex, toBytes, hexEncode]
  | succ width ih =>
    have hdiv : n / 256 < 256 ^ width := by
      exact Nat.div_lt_of_lt_mul (Nat.mul_comm _ _ ▸ h)
    have hbyte : hexEncode [UInt8.ofNat n] = [hexDigit (n / 16 % 16), hexDigit (n % 16)] := by
      have hhigh : n % 256 / 16 = n / 16 % 16 := by omega
      have hlow : n % 256 % 16 = n % 16 := by omega
      simp [hexEncode, hhigh, hlow]
    rw [toBytes, hexEncode_append, ← ih hdiv, hbyte, Nat.mul_add_one, formatHex, formatHex,
      Nat.div_div_eq_div_mul, append_assoc]
    rfl

end BeepMusic.Lib
