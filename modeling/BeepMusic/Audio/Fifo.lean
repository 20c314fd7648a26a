import Mathlib.Algebra.Group.Nat.Defs
import BeepMusic.Lib.File
import BeepMusic.Lib.Ring

/-!
`fifo2.c`: a ring of bytes with three pointers. Between `rptr` and `wptr` are the
bytes that have not been read, the fresh ones; those from `sptr` on have been read
but not discarded, and are not overwritten.
-/

namespace BeepMusic.Audio

open Lib List

structure Fifo2 where
  base : ℕ → UInt8
  size : ℕ
  wptr : ℕ
  rptr : ℕ
  sptr : ℕ

/-- `memcpy` to `base + dst`. -/
def memcpyIn (base : ℕ → UInt8) (dst : ℕ) (src : Bytes) : ℕ → UInt8 :=
  fun j => if dst ≤ j then src[j - dst]?.getD (base j) else base j

/-- `memcpy` of `n` bytes from `base + src`. -/
def memcpyOut (base : ℕ → UInt8) (src n : ℕ) : Bytes :=
  (List.range n).map fun i => base (src + i)

namespace Fifo2

def init (size : ℕ) : Fifo2 := ⟨fun _ => 0, size, 0, 0, 0⟩

variable (f : Fifo2)

def bytesUsed (stale : Bool) : ℕ :=
  let ptr := if stale then f.sptr else f.rptr
  if ptr ≤ f.wptr then f.wptr - ptr else f.wptr + f.size - ptr

def bytesFree : ℕ :=
  if f.wptr < f.sptr then f.sptr - f.wptr - 1 else f.sptr + f.size - f.wptr - 1

def wptrIncby (incby : ℕ) : Fifo2 :=
  if f.wptr + incby = f.size then { f with wptr := 0 } else { f with wptr := f.wptr + incby }

/-- An object has less than `SIZE_MAX / 2` bytes, so the sum does not overflow. -/
def incPtr (ptr bytes : ℕ) : ℕ :=
  if f.size ≤ ptr + bytes then ptr + bytes - f.size else ptr + bytes

def copyOut (ptr size : ℕ) : Bytes :=
  let contb := f.size - ptr
  if size ≤ contb then memcpyOut f.base ptr size
  else memcpyOut f.base ptr contb ++ memcpyOut f.base 0 (size - contb)

/-- All or nothing. -/
def enq (buf : Bytes) : ℕ × Fifo2 :=
  if f.bytesFree < buf.length then (0, f)
  else
    let contb := f.size - f.wptr
    if buf.length ≤ contb then
      (buf.length, { f with base := memcpyIn f.base f.wptr buf }.wptrIncby buf.length)
    else
      let base := memcpyIn f.base f.wptr (buf.take contb)
      let base := memcpyIn base 0 (buf.drop contb)
      (buf.length, ({ f with base := base }.wptrIncby contb).wptrIncby (buf.length - contb))

/-- All or nothing, with what is read. -/
def deq (size : ℕ) (autoDiscard : Bool) : ℕ × Bytes × Fifo2 :=
  if f.bytesUsed false < size then (0, [], f)
  else
    let rptr := f.incPtr f.rptr size
    (size, f.copyOut f.rptr size,
      { f with rptr := rptr, sptr := if autoDiscard then rptr else f.sptr })

def discard (size : ℕ) : ℕ × Fifo2 :=
  let diff := f.bytesUsed true - f.bytesUsed false
  if diff ≤ size then (diff, { f with sptr := f.rptr })
  else (size, { f with sptr := f.incPtr f.sptr size })

/-- `SIZE_MAX + 1`, on the 32 bit targets. -/
def sizeT : ℕ := 2 ^ 32

/-- All or nothing, and nothing moves. -/
def read (offset size : ℕ) (stale : Bool) : ℕ × Bytes :=
  if f.bytesUsed stale < (size + offset) % sizeT then (0, [])
  else
    let offset := f.incPtr (if stale then f.sptr else f.rptr) offset
    (size, f.copyOut offset size)

def flush : Fifo2 := { f with sptr := 0, rptr := 0, wptr := 0 }

/-! ### What the pointers mean -/

/-- The pointers are in the ring, `rptr` between the other two. -/
structure Ok (f : Fifo2) : Prop where
  wptr : f.wptr < f.size
  rptr : f.rptr < f.size
  sptr : f.sptr < f.size
  le : Ring.dist f.size f.rptr f.wptr ≤ Ring.dist f.size f.sptr f.wptr

/-- The bytes that have not been read. -/
def fresh : Bytes :=
  Ring.segment f.base f.size f.rptr (Ring.dist f.size f.rptr f.wptr)

variable {f : Fifo2}

variable {size n : ℕ} {base : ℕ → UInt8} {buf : Bytes}

theorem ok_init (h : 0 < size) : (init size).Ok := ⟨h, h, h, Nat.le_refl _⟩

theorem bytesUsed_eq (f : Fifo2) (stale : Bool) :
    f.bytesUsed stale = Ring.dist f.size (if stale then f.sptr else f.rptr) f.wptr := rfl

theorem length_fresh (f : Fifo2) : f.fresh.length = f.bytesUsed false :=
  Ring.length_segment _ _ _ _

theorem Ok.bytesFree_eq (h : f.Ok) :
    f.bytesFree + Ring.dist f.size f.sptr f.wptr + 1 = f.size := by
  have hw := h.wptr
  have hs := h.sptr
  rw [bytesFree, Ring.dist]
  split_ifs <;> omega

theorem memcpyOut_eq {ptr : ℕ} (h : ptr + n ≤ size) :
    memcpyOut base ptr n = Ring.segment base size ptr n := by
  apply map_congr_left
  intro i hi
  have hlt := mem_range.mp hi
  rw [Ring.advance, if_neg (by omega)]

theorem copyOut_eq {ptr : ℕ} (hptr : ptr < f.size) (hn : n ≤ f.size) :
    f.copyOut ptr n = Ring.segment f.base f.size ptr n := by
  rw [copyOut]
  split_ifs with hwrap
  · exact memcpyOut_eq (by omega)
  · have hsplit : n = (f.size - ptr) + (n - (f.size - ptr)) := by omega
    have hzero : Ring.advance f.size ptr (f.size - ptr) = 0 := by
      rw [Ring.advance, if_pos (by omega)]
      omega
    rw [memcpyOut_eq (show ptr + (f.size - ptr) ≤ f.size by omega),
      memcpyOut_eq (show 0 + (n - (f.size - ptr)) ≤ f.size by omega), ← hzero,
      ← Ring.segment_add hptr (by omega), ← hsplit]

theorem written_memcpyIn {w : ℕ} (hfit : w + buf.length ≤ size) :
    Ring.Written base (memcpyIn base w buf) size w buf := by
  intro j hj
  rw [memcpyIn, Ring.dist]
  split_ifs with hle
  · rfl
  · rw [getElem?_eq_none (by omega), Option.getD_none]

theorem written_memcpyIn_wrap {w : ℕ} (hw : w < size) (hfit : buf.length ≤ size) :
    Ring.Written base
      (memcpyIn (memcpyIn base w (buf.take (size - w))) 0 (buf.drop (size - w))) size w buf := by
  intro j hj
  rw [memcpyIn, if_pos (Nat.zero_le j), Nat.sub_zero, getElem?_drop, memcpyIn, Ring.dist]
  split_ifs with hle
  · rw [getElem?_eq_none (show buf.length ≤ size - w + j by omega), Option.getD_none,
      getElem?_take_of_lt (by omega)]
  · congr 2
    omega

theorem wptrIncby_eq (h : f.wptr + n ≤ f.size) :
    f.wptrIncby n = { f with wptr := Ring.advance f.size f.wptr n } := by
  rw [wptrIncby, Ring.advance]
  split_ifs with hend hge hge
  · rw [hend, Nat.sub_self]
  · omega
  · omega
  · rfl

variable (h : f.Ok)
include h

theorem Ok.enq_eq (hfit : buf.length ≤ f.bytesFree) :
    ∃ base, Ring.Written f.base base f.size f.wptr buf ∧
      f.enq buf = (buf.length, { f with
        base := base, wptr := Ring.advance f.size f.wptr buf.length }) := by
  have hw := h.wptr
  have hfree := h.bytesFree_eq
  rw [enq, if_neg (by omega)]
  dsimp only
  split_ifs with hwrap
  · refine ⟨_, written_memcpyIn (by omega), ?_⟩
    rw [wptrIncby_eq]
    show f.wptr + buf.length ≤ f.size
    omega
  · refine ⟨_, written_memcpyIn_wrap hw (by omega), ?_⟩
    -- the first part ends at the end of the memory, so the second begins at its beginning
    have hend : f.wptr + (f.size - f.wptr) = f.size := by omega
    have hfirst : ∀ base, { f with base := base }.wptrIncby (f.size - f.wptr) =
        { f with base := base, wptr := 0 } := fun base => if_pos hend
    have hsecond : Ring.advance f.size 0 (buf.length - (f.size - f.wptr)) =
        Ring.advance f.size f.wptr buf.length := by
      simp only [Ring.advance]
      rw [if_neg (by omega), if_pos (by omega)]
      omega
    rw [hfirst, wptrIncby_eq]
    · rw [hsecond]
    · show 0 + (buf.length - (f.size - f.wptr)) ≤ f.size
      omega

theorem Ok.enq (hfit : buf.length ≤ f.bytesFree) :
    (f.enq buf).2.Ok ∧ (f.enq buf).2.fresh = f.fresh ++ buf := by
  obtain ⟨base, hwritten, heq⟩ := h.enq_eq hfit
  have hfree := h.bytesFree_eq
  have hle := h.le
  have hroom : Ring.dist f.size f.rptr f.wptr + buf.length < f.size := by omega
  have hstale := Ring.dist_advance_right h.sptr h.wptr
    (show Ring.dist f.size f.sptr f.wptr + buf.length < f.size by omega)
  have hfresh := Ring.dist_advance_right h.rptr h.wptr hroom
  rw [heq]
  refine ⟨⟨Ring.advance_lt h.wptr (by omega), h.rptr, h.sptr, ?_⟩, ?_⟩
  · show Ring.dist f.size f.rptr (Ring.advance f.size f.wptr buf.length) ≤
      Ring.dist f.size f.sptr (Ring.advance f.size f.wptr buf.length)
    omega
  · exact hwritten.segment_dist h.rptr h.wptr hroom

theorem Ok.deq_eq (hn : n ≤ f.bytesUsed false) (autoDiscard : Bool) :
    f.deq n autoDiscard = (n, f.fresh.take n, { f with
      rptr := Ring.advance f.size f.rptr n
      sptr := if autoDiscard then Ring.advance f.size f.rptr n else f.sptr }) := by
  have hused : n ≤ Ring.dist f.size f.rptr f.wptr := hn
  have hlt := Ring.dist_lt h.rptr h.wptr
  have htake : f.fresh.take n = Ring.segment f.base f.size f.rptr n := by
    rw [fresh, ← Nat.add_sub_cancel' hused, Ring.segment_add h.rptr (by omega),
      take_left' (Ring.length_segment _ _ _ _)]
  rw [Fifo2.deq, if_neg (by omega), copyOut_eq h.rptr (by omega), htake]
  rfl

theorem Ok.moved (hn : n ≤ f.bytesUsed false) (autoDiscard : Bool) :
    Ok { f with
      rptr := Ring.advance f.size f.rptr n
      sptr := if autoDiscard then Ring.advance f.size f.rptr n else f.sptr } := by
  have hused : n ≤ Ring.dist f.size f.rptr f.wptr := hn
  have hlt := Ring.dist_lt h.rptr h.wptr
  have hle := h.le
  have hleft := Ring.dist_advance_left h.rptr h.wptr hused
  have hrptr : Ring.advance f.size f.rptr n < f.size := Ring.advance_lt h.rptr (by omega)
  cases autoDiscard with
  | true => exact ⟨h.wptr, hrptr, hrptr, Nat.le_refl _⟩
  | false =>
    refine ⟨h.wptr, hrptr, h.sptr, ?_⟩
    show Ring.dist f.size (Ring.advance f.size f.rptr n) f.wptr ≤
      Ring.dist f.size f.sptr f.wptr
    omega

theorem Ok.deq (hn : n ≤ f.bytesUsed false) :
    ∃ g : Fifo2, f.deq n false = (n, f.fresh.take n, g) ∧ g.Ok ∧ g.fresh = f.fresh.drop n :=
  ⟨_, h.deq_eq hn false, h.moved hn false, (Ring.drop_segment_dist h.rptr h.wptr hn).symm⟩

theorem Ok.deq_append {bytes rest : Bytes} (hfresh : f.fresh = bytes ++ rest) :
    ∃ g : Fifo2, f.deq bytes.length false = (bytes.length, bytes, g) ∧ g.Ok ∧ g.fresh = rest := by
  have hused : bytes.length ≤ f.bytesUsed false := by
    rw [← length_fresh, hfresh, length_append]
    exact Nat.le_add_right _ _
  obtain ⟨g, hdeq, hok, hrest⟩ := h.deq hused
  rw [hfresh, take_left] at hdeq
  rw [hfresh, drop_left] at hrest
  exact ⟨g, hdeq, hok, hrest⟩

theorem Ok.discard (n : ℕ) : (f.discard n).2.Ok ∧ (f.discard n).2.fresh = f.fresh := by
  have hlt := Ring.dist_lt h.sptr h.wptr
  rw [Fifo2.discard]
  split_ifs with hdiff
  · exact ⟨⟨h.wptr, h.rptr, h.rptr, Nat.le_refl _⟩, rfl⟩
  · rw [bytesUsed_eq, bytesUsed_eq] at hdiff
    simp only [if_true, Bool.false_eq_true, if_false] at hdiff
    have hleft := Ring.dist_advance_left h.sptr h.wptr
      (show n ≤ Ring.dist f.size f.sptr f.wptr by omega)
    refine ⟨⟨h.wptr, h.rptr, Ring.advance_lt h.sptr (by omega), ?_⟩, rfl⟩
    show Ring.dist f.size f.rptr f.wptr ≤
      Ring.dist f.size (Ring.advance f.size f.sptr n) f.wptr
    omega

end Fifo2

end BeepMusic.Audio
