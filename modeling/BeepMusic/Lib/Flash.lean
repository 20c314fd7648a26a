import Mathlib.Algebra.Group.Nat.Defs
import Mathlib.Data.List.Basic

/-!
NOR flash. Programming a byte can clear bits of it and erasing a sector sets them
all, so a counter that is to live long is unary: it clears one bit after the other,
and bytes that are used up stay zero.
-/

namespace BeepMusic.Lib

open List

/-- A byte that is programmed: what it was, and the value asked for. -/
structure FlashWrite where
  old : UInt8
  value : UInt8
  deriving DecidableEq

/-- Only bits that are set are changed. -/
def FlashWrite.ClearsOnly (w : FlashWrite) : Prop := w.old &&& w.value = w.value

namespace Flash

def program (bytes : List UInt8) (offset : ℕ) (value : UInt8) : List UInt8 :=
  bytes.set offset (bytes.getD offset 0 &&& value)

theorem length_program (bytes : List UInt8) (offset : ℕ) (value : UInt8) :
    (program bytes offset value).length = bytes.length := length_set

def erased (size : ℕ) : List UInt8 := List.replicate size 0xff

/-- The first byte that is not zero, with its place when the list is at `offset`. -/
def firstNonzero : List UInt8 → ℕ → Option (ℕ × UInt8)
  | [], _ => none
  | b :: bytes, offset => if b = 0 then firstNonzero bytes (offset + 1) else some (offset, b)

theorem firstNonzero_zeros (zeros : ℕ) {b : UInt8} (hb : b ≠ 0) (bytes : List UInt8) (offset : ℕ) :
    firstNonzero (List.replicate zeros 0 ++ b :: bytes) offset = some (offset + zeros, b) := by
  induction zeros generalizing offset with
  | zero => simp [firstNonzero, hb]
  | succ zeros ih =>
    rw [replicate_succ, cons_append, firstNonzero, if_pos rfl, ih]
    congr 2
    omega

theorem firstNonzero_eq_none (zeros offset : ℕ) :
    firstNonzero (List.replicate zeros 0) offset = none := by
  induction zeros generalizing offset with
  | zero => rfl
  | succ zeros ih => exact ih (offset + 1)

/-- The byte with the `k` low bits. -/
def ones (k : ℕ) : UInt8 := UInt8.ofNat (2 ^ k - 1)

theorem ones_ne_zero : ∀ k ≤ 8, 0 < k → ones k ≠ 0 := by decide

theorem ones_and_ones : ∀ k ≤ 8, ∀ j ≤ k, ones k &&& ones j = ones j := by decide

/-- Any value can be programmed to a byte that has been erased. -/
theorem erased_and (b : UInt8) : 0xff &&& b = b := UInt8.neg_one_and

end Flash

/-- A unary counter: used up bytes, the byte that is in use, with `k` bits left, and
bytes that have not been used. -/
structure Unary (bytes : List UInt8) (zeros k rest : ℕ) : Prop where
  pos : 0 < k
  le : k ≤ 8
  eq : bytes = List.replicate zeros 0 ++ Flash.ones k :: List.replicate rest 0xff

namespace Unary

open Flash

variable {bytes : List UInt8} {zeros k rest : ℕ}

theorem erased {size : ℕ} (h : 0 < size) : Unary (Flash.erased size) 0 8 (size - 1) where
  pos := by decide
  le := Nat.le_refl 8
  eq := by
    obtain ⟨n, rfl⟩ : ∃ n, size = n + 1 := ⟨size - 1, by omega⟩
    rfl

section

variable (h : Unary bytes zeros k rest)
include h

theorem length : bytes.length = zeros + 1 + rest := by
  rw [h.eq, length_append, length_replicate, length_cons, length_replicate]
  omega

theorem getD : bytes.getD zeros 0 = ones k := by
  rw [h.eq]
  simp

theorem firstNonzero_eq (offset : ℕ) :
    firstNonzero bytes offset = some (offset + zeros, ones k) := by
  rw [h.eq]
  exact firstNonzero_zeros zeros (ones_ne_zero k h.le h.pos) _ offset

theorem program_eq {value : UInt8} (hclears : ones k &&& value = value) :
    program bytes zeros value = List.replicate zeros 0 ++ value :: List.replicate rest 0xff := by
  rw [program, h.getD, hclears, h.eq]
  simp

theorem lower {j : ℕ} (hpos : 0 < j) (hle : j ≤ k) :
    Unary (program bytes zeros (ones j)) zeros j rest where
  pos := hpos
  le := Nat.le_trans hle h.le
  eq := h.program_eq (ones_and_ones k h.le j hle)

end

theorem next (h : Unary bytes zeros k (rest + 1)) :
    Unary (program bytes zeros 0) (zeros + 1) 8 rest where
  pos := by decide
  le := Nat.le_refl 8
  eq := by
    have hclears : ones k &&& 0 = 0 := ones_and_ones k h.le 0 (Nat.zero_le k)
    have hzeros : replicate (zeros + 1) (0 : UInt8) = replicate zeros 0 ++ [0] :=
      replicate_succ'
    rw [h.program_eq hclears, hzeros, append_assoc]
    rfl

end Unary

end BeepMusic.Lib
