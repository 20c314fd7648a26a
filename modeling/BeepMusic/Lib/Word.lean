import Mathlib.Algebra.Group.Nat.Defs
import BeepMusic.Lib.File

/-!
Numbers as bytes, the most significant one first, and records of such numbers that
all have the same width.
-/

namespace BeepMusic.Lib

open List

/-- The low `width` bytes of a number. -/
def toBytes : (width n : ℕ) → Bytes
  | 0, _ => []
  | width + 1, n => toBytes width (n / 256) ++ [UInt8.ofNat n]

@[simp] theorem length_toBytes (width n : ℕ) : (toBytes width n).length = width := by
  induction width generalizing n with
  | zero => rfl
  | succ width ih => rw [toBytes, length_append, ih, length_singleton]

/-- The most significant byte comes first. -/
theorem toBytes_succ (width n : ℕ) :
    toBytes (width + 1) n = UInt8.ofNat (n / 256 ^ width) :: toBytes width n := by
  induction width generalizing n with
  | zero =>
    rw [Nat.pow_zero, Nat.div_one]
    rfl
  | succ width ih =>
    rw [toBytes, ih, Nat.div_div_eq_div_mul, Nat.pow_succ']
    rfl

theorem bigEndian_append (bs : Bytes) (b : UInt8) :
    bigEndian (bs ++ [b]) = bigEndian bs * 256 + b.toNat := by
  rw [bigEndian, foldl_append]
  rfl

theorem bigEndian_toBytes {width n : ℕ} (h : n < 256 ^ width) :
    bigEndian (toBytes width n) = n := by
  induction width generalizing n with
  | zero =>
    obtain rfl : n = 0 := by simpa using h
    rfl
  | succ width ih =>
    have hdiv : n / 256 < 256 ^ width := by
      exact Nat.div_lt_of_lt_mul (Nat.mul_comm _ _ ▸ h)
    rw [toBytes, bigEndian_append, ih hdiv, UInt8.toNat_ofNat']
    omega

/-- A record of numbers, each with `width` bytes. -/
def encodeWords (width : ℕ) (ns : List ℕ) : Bytes := ns.flatMap (toBytes width)

/-- The number at some index of a record. -/
def wordAt (width : ℕ) (bs : Bytes) (i : ℕ) : ℕ := bigEndian ((bs.drop (width * i)).take width)

theorem length_encodeWords (width : ℕ) (ns : List ℕ) :
    (encodeWords width ns).length = width * ns.length := by
  induction ns with
  | nil => rfl
  | cons n ns ih =>
    rw [encodeWords, flatMap_cons, length_append, length_toBytes, ← encodeWords, ih,
      length_cons, Nat.mul_add_one, Nat.add_comm]

/-- What is written into a record is read from it, whatever stands behind it. -/
theorem wordAt_encodeWords {width : ℕ} {ns : List ℕ} (rest : Bytes) {i : ℕ} (hi : i < ns.length)
    (hlt : ∀ n ∈ ns, n < 256 ^ width) :
    wordAt width (encodeWords width ns ++ rest) i = ns.getD i 0 := by
  induction ns generalizing i with
  | nil => exact absurd hi (Nat.not_lt_zero i)
  | cons n ns ih =>
    rw [encodeWords, flatMap_cons, ← encodeWords, append_assoc]
    cases i with
    | zero =>
      rw [wordAt, Nat.mul_zero, drop_zero, take_left' (length_toBytes width n),
        bigEndian_toBytes (hlt n mem_cons_self), getD_cons_zero]
    | succ i =>
      have hdrop : width * (i + 1) = (toBytes width n).length + width * i := by
        rw [length_toBytes, Nat.mul_add_one, Nat.add_comm]
      rw [wordAt, hdrop, drop_length_add_append, ← wordAt, getD_cons_succ]
      exact ih (Nat.lt_of_succ_lt_succ hi) fun m hm => hlt m (mem_cons_of_mem n hm)

end BeepMusic.Lib
