import Mathlib.Data.List.Basic
import Mathlib.Data.List.TakeWhile

/-!
Files that are read through a position, as C streams are, and the loop that feeds
the rest of a file, chunk by chunk, to something that collects it.
-/

namespace BeepMusic.Lib

open List

abbrev Bytes := List UInt8

/-- What is checked for each value of a byte. -/
theorem forall_byte {P : UInt8 → Prop} (h : ∀ n : Fin 256, P (.ofFin n)) (b : UInt8) : P b :=
  h b.toFin

/-- The value of bytes, the most significant one first. -/
def bigEndian (bs : Bytes) : ℕ := bs.foldl (fun acc b => acc * 256 + b.toNat) 0

def littleEndian (bs : Bytes) : ℕ := bigEndian bs.reverse

/-- A C string: what stands before the first zero byte. -/
def cString (bs : Bytes) : Bytes := bs.takeWhile (· ≠ 0)

theorem cString_eq_self {bs : Bytes} (h : ∀ b ∈ bs, b ≠ 0) : cString bs = bs :=
  takeWhile_eq_self_iff.mpr fun b hb => decide_eq_true (h b hb)

/-- An open file and its position. -/
structure File where
  bytes : Bytes
  pos : ℕ
  deriving DecidableEq

namespace File

/-- `fseek` from the beginning. -/
def seek (f : File) (pos : ℕ) : File := { f with pos := pos }

/-- What is left of the file. -/
def rest (f : File) : Bytes := f.bytes.drop f.pos

theorem rest_seek_add (f : File) (n : ℕ) : (f.seek (f.pos + n)).rest = f.rest.drop n :=
  (drop_drop ..).symm

/-- `fread`: up to `n` bytes. -/
def read (f : File) (n : ℕ) : Bytes × File :=
  (f.rest.take n, { f with pos := f.pos + (f.rest.take n).length })

theorem read_append_rest (f : File) (n : ℕ) : (f.read n).1 ++ (f.read n).2.rest = f.rest := by
  simp only [read, rest, ← drop_drop]
  rw [length_take]
  rcases Nat.le_total n (f.bytes.drop f.pos).length with hle | hle
  · rw [Nat.min_eq_left hle, take_append_drop]
  · rw [Nat.min_eq_right hle, take_of_length_le hle, drop_length, append_nil]

/-- How a loop over the rest of a file ends. -/
inductive FeedResult
  /-- Nothing remains. -/
  | done
  | readError
  | updateError
  deriving DecidableEq

/-- Feed `remaining` bytes in chunks of at most `size`: `update` is asked with what
has been fed before. There are at most `fuel` turns. -/
def feed (update : List Bytes → Bytes → Bool) (size : ℕ) :
    (fuel remaining : ℕ) → File → List Bytes → FeedResult × List Bytes × File
  | _, 0, f, fed => (.done, fed, f)
  | 0, _, f, fed => (.readError, fed, f)
  | fuel + 1, remaining + 1, f, fed =>
    let (chunk, f) := f.read (min (remaining + 1) size)
    if chunk = [] then (.readError, fed, f)
    else if update fed chunk = false then (.updateError, fed, f)
    else feed update size fuel (remaining + 1 - chunk.length) f (fed ++ [chunk])

variable {update : List Bytes → Bytes → Bool} {size fuel remaining : ℕ} {f f' : File}
  {fed fed' : List Bytes}

/-- A loop that ends well has fed exactly the rest of the file. -/
theorem flatten_feed (hrest : f.rest.length = remaining)
    (hrun : feed update size fuel remaining f fed = (.done, fed', f')) :
    fed'.flatten = fed.flatten ++ f.rest := by
  induction fuel generalizing remaining f fed with
  | zero =>
    cases remaining with
    | zero =>
      simp only [feed, Prod.mk.injEq, true_and] at hrun
      rw [← hrun.1, eq_nil_of_length_eq_zero hrest, append_nil]
    | succ remaining => simp [feed] at hrun
  | succ fuel ih =>
    cases remaining with
    | zero =>
      simp only [feed, Prod.mk.injEq, true_and] at hrun
      rw [← hrun.1, eq_nil_of_length_eq_zero hrest, append_nil]
    | succ remaining =>
      have happend := f.read_append_rest (min (remaining + 1) size)
      have hlength := congrArg List.length happend
      rw [length_append, hrest] at hlength
      simp only [feed] at hrun
      split_ifs at hrun
      · simp at hrun
      · simp at hrun
      · have hfed := ih (by omega) hrun
        rw [hfed, flatten_append, flatten_singleton, append_assoc, happend]

end File

end BeepMusic.Lib
