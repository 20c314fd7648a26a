import BeepMusic.Audio.FifoLists

/-!
`fifo.c`: the other fifo, with pointers into the memory where `fifo2.c` has offsets
from its base. Where it tracks stale bytes the two give the same answers.
-/

namespace BeepMusic.Audio

open Lib

/-- `struct __fifo`, with the memory that its pointers point to. -/
structure Fifo where
  memory : ℕ → UInt8
  base : ℕ
  endPtr : ℕ
  wptr : ℕ
  rptr : ℕ
  sptr : ℕ
  size : ℕ
  /-- `options & FIFO_TRACK_STALE` -/
  trackStale : Bool

variable (memory : ℕ → UInt8)

namespace Fifo

def init (base size : ℕ) (trackStale : Bool) : Fifo where
  memory := memory
  base := base
  endPtr := base + size
  size := size
  sptr := base
  rptr := base
  wptr := base
  trackStale := trackStale

variable (f : Fifo)

def bytesUsed (stale : Bool) : ℕ :=
  if stale && f.trackStale then
    if f.sptr ≤ f.wptr then f.wptr - f.sptr else f.wptr + f.size - f.sptr
  else
    if f.rptr ≤ f.wptr then f.wptr - f.rptr else f.wptr + f.size - f.rptr

def bytesFree : ℕ :=
  if f.wptr < f.sptr then f.sptr - f.wptr - 1 else f.sptr + f.size - f.wptr - 1

def reset : Fifo := { f with sptr := f.base, rptr := f.base, wptr := f.base }

def incPtr (ptr bytes : ℕ) : ℕ :=
  if f.endPtr ≤ ptr + bytes then ptr + bytes - f.size else ptr + bytes

def copyOut (ptr size : ℕ) : Bytes :=
  let contb := f.endPtr - ptr
  if size ≤ contb then memcpyOut f.memory ptr size
  else memcpyOut f.memory ptr contb ++ memcpyOut f.memory f.base (size - contb)

def enq (buf : Bytes) : ℕ × Fifo :=
  if f.bytesFree < buf.length then (0, f)
  else
    let contb := f.endPtr - f.wptr
    if buf.length ≤ contb then
      (buf.length, { f with
        memory := memcpyIn f.memory f.wptr buf
        wptr := if f.wptr + buf.length = f.endPtr then f.base else f.wptr + buf.length })
    else
      let memory := memcpyIn f.memory f.wptr (buf.take contb)
      let memory := memcpyIn memory f.base (buf.drop contb)
      (buf.length, { f with memory := memory, wptr := f.base + buf.length - contb })

def deq (size : ℕ) (discard : Bool) : ℕ × Bytes × Fifo :=
  if f.bytesUsed false < size then (0, [], f)
  else
    let rptr := f.incPtr f.rptr size
    (size, f.copyOut f.rptr size,
      { f with rptr := rptr, sptr := if discard || !f.trackStale then rptr else f.sptr })

def read (offset size : ℕ) (stale : Bool) : ℕ × Bytes :=
  if f.bytesUsed stale < (size + offset) % Fifo2.sizeT then (0, [])
  else
    let ptr := f.incPtr (if stale then f.sptr else f.rptr) offset
    (size, f.copyOut ptr size)

def discard (size : ℕ) : ℕ × Fifo :=
  let diff := f.bytesUsed true - f.bytesUsed false
  if diff ≤ size then (diff, { f with sptr := f.rptr })
  else (size, { f with sptr := f.incPtr f.sptr size })

def perform : FifoCall → FifoAnswer × Fifo
  | .enq buf => (⟨(f.enq buf).1, []⟩, (f.enq buf).2)
  | .deq size autoDiscard =>
    let (count, buf, g) := f.deq size autoDiscard
    (⟨count, buf⟩, g)
  | .read offset size stale =>
    let (count, buf) := f.read offset size stale
    (⟨count, buf⟩, f)
  | .discard size => (⟨(f.discard size).1, []⟩, (f.discard size).2)
  | .flush => ({}, f.reset)
  | .bytesUsed stale => (⟨f.bytesUsed stale, []⟩, f)
  | .bytesFree => (⟨f.bytesFree, []⟩, f)

end Fifo

def fifo : Component Fifo FifoCall FifoAnswer where
  perform := Fifo.perform

namespace Fifo

/-- The pointers are the offsets, from the base on. -/
structure Places (g : Fifo) (f : Fifo2) : Prop where
  cells : f.base = fun j => g.memory (g.base + j)
  size : g.size = f.size
  endPtr : g.endPtr = g.base + f.size
  wptr : g.wptr = g.base + f.wptr
  rptr : g.rptr = g.base + f.rptr
  sptr : g.sptr = g.base + f.sptr
  trackStale : g.trackStale = true

theorem memcpyIn_add (base dst : ℕ) (src : Bytes) :
    (fun j => memcpyIn memory (base + dst) src (base + j)) =
      memcpyIn (fun j => memory (base + j)) dst src := by
  ext j
  simp only [memcpyIn, Nat.add_le_add_iff_left, Nat.add_sub_add_left]

theorem memcpyOut_add (base src n : ℕ) :
    memcpyOut memory (base + src) n = memcpyOut (fun j => memory (base + j)) src n := by
  simp only [memcpyOut, Nat.add_assoc]

namespace Places

variable {g : Fifo} {f : Fifo2}

theorem init {memory : ℕ → UInt8} {base size : ℕ} :
    Places (Fifo.init memory base size true) (.new (fun j => memory (base + j)) size) :=
  ⟨rfl, rfl, rfl, rfl, rfl, rfl, rfl⟩

variable (h : Places g f)
include h

theorem bytesUsed (stale : Bool) : g.bytesUsed stale = f.bytesUsed stale := by
  simp only [Fifo.bytesUsed, Fifo2.bytesUsed, h.trackStale, h.wptr, h.rptr, h.sptr, h.size,
    Bool.and_true]
  cases stale <;> simp only [Bool.false_eq_true, if_true, if_false] <;> split_ifs <;> omega

theorem bytesFree : g.bytesFree = f.bytesFree := by
  simp only [Fifo.bytesFree, Fifo2.bytesFree, h.wptr, h.sptr, h.size]
  split_ifs <;> omega

theorem incPtr (ptr bytes : ℕ) : g.incPtr (g.base + ptr) bytes = g.base + f.incPtr ptr bytes := by
  simp only [Fifo.incPtr, Fifo2.incPtr, h.endPtr, h.size]
  split_ifs <;> omega

theorem copyOut (ptr n : ℕ) : g.copyOut (g.base + ptr) n = f.copyOut ptr n := by
  have hzero := memcpyOut_add g.memory g.base 0
  simp only [Fifo.copyOut, Fifo2.copyOut, h.endPtr, h.cells, Nat.add_sub_add_left,
    memcpyOut_add, ← hzero, Nat.add_zero]

theorem written {memory cells : ℕ → UInt8} {w w' : ℕ}
    (hcells : cells = fun j => memory (g.base + j)) (hw : w' = g.base + w) :
    Places { g with memory := memory, wptr := w' } { f with base := cells, wptr := w } :=
  { h with cells := hcells, wptr := hw }

theorem enq_contiguous (buf : Bytes) :
    Places
      { g with
        memory := memcpyIn g.memory g.wptr buf
        wptr := if g.wptr + buf.length = g.endPtr then g.base else g.wptr + buf.length }
      ({ f with base := memcpyIn f.base f.wptr buf }.wptrIncby buf.length) := by
  have hcells : memcpyIn f.base f.wptr buf =
      fun j => memcpyIn g.memory g.wptr buf (g.base + j) := by
    rw [h.cells, h.wptr, memcpyIn_add]
  have hendPtr := h.endPtr
  have hwptr := h.wptr
  simp only [Fifo2.wptrIncby]
  by_cases hend : f.wptr + buf.length = f.size
  · rw [if_pos (show g.wptr + buf.length = g.endPtr by omega), if_pos hend]
    exact h.written hcells (Nat.add_zero _).symm
  · rw [if_neg (show ¬g.wptr + buf.length = g.endPtr by omega), if_neg hend]
    exact h.written hcells (by omega)

theorem enq_wrap {buf : Bytes} (hw : f.wptr < f.size) (hfit : buf.length < f.size)
    (hwrap : ¬buf.length ≤ f.size - f.wptr) :
    Places
      { g with
        memory := memcpyIn (memcpyIn g.memory g.wptr (buf.take (f.size - f.wptr))) g.base
          (buf.drop (f.size - f.wptr))
        wptr := g.base + buf.length - (f.size - f.wptr) }
      (({ f with
        base := memcpyIn (memcpyIn f.base f.wptr (buf.take (f.size - f.wptr))) 0
          (buf.drop (f.size - f.wptr)) }.wptrIncby (f.size - f.wptr)).wptrIncby
        (buf.length - (f.size - f.wptr))) := by
  have hfirst := memcpyIn_add g.memory g.base f.wptr (buf.take (f.size - f.wptr))
  have hsecond := memcpyIn_add
  simp only [Fifo2.wptrIncby, Nat.add_sub_cancel' (Nat.le_of_lt hw), if_true, Nat.zero_add]
  rw [if_neg (by omega)]
  refine h.written ?_ (by omega)
  rw [h.cells, h.wptr, ← hfirst, ← hsecond, Nat.add_zero]

theorem enq (hok : f.Ok) (buf : Bytes) :
    (g.enq buf).1 = (f.enq buf).1 ∧ Places (g.enq buf).2 (f.enq buf).2 := by
  have hfree := hok.bytesFree_eq
  have hcontb : g.endPtr - g.wptr = f.size - f.wptr := by
    rw [h.endPtr, h.wptr, Nat.add_sub_add_left]
  simp only [Fifo.enq, Fifo2.enq, h.bytesFree, hcontb]
  by_cases hfull : f.bytesFree < buf.length
  · rw [if_pos hfull, if_pos hfull]
    exact ⟨rfl, h⟩
  · rw [if_neg hfull, if_neg hfull]
    by_cases hfit : buf.length ≤ f.size - f.wptr
    · rw [if_pos hfit, if_pos hfit]
      exact ⟨rfl, h.enq_contiguous buf⟩
    · rw [if_neg hfit, if_neg hfit]
      exact ⟨rfl, h.enq_wrap hok.wptr (by omega) hfit⟩

theorem deq (n : ℕ) (autoDiscard : Bool) :
    (g.perform (.deq n autoDiscard)).1 = (f.perform (.deq n autoDiscard)).1 ∧
      Places (g.perform (.deq n autoDiscard)).2 (f.perform (.deq n autoDiscard)).2 := by
  have hrptr := h.incPtr f.rptr n
  simp only [Fifo.perform, Fifo2.perform, Fifo.deq, Fifo2.deq, h.bytesUsed, h.rptr, hrptr,
    h.copyOut, h.trackStale, Bool.not_true, Bool.or_false]
  by_cases hshort : f.bytesUsed false < n
  · rw [if_pos hshort, if_pos hshort]
    exact ⟨rfl, h⟩
  · rw [if_neg hshort, if_neg hshort]
    refine ⟨rfl, h.cells, h.size, h.endPtr, h.wptr, rfl, ?_, rfl⟩
    cases autoDiscard with
    | true => rfl
    | false => exact h.sptr

theorem read (offset n : ℕ) (stale : Bool) : g.read offset n stale = f.read offset n stale := by
  have hptr : (if stale then g.sptr else g.rptr) =
      g.base + if stale then f.sptr else f.rptr := by
    cases stale
    · exact h.rptr
    · exact h.sptr
  simp [Fifo.read, Fifo2.read, h.bytesUsed, hptr, h.incPtr, h.copyOut]

theorem discard (n : ℕ) :
    (g.discard n).1 = (f.discard n).1 ∧ Places (g.discard n).2 (f.discard n).2 := by
  simp only [Fifo.discard, Fifo2.discard, h.bytesUsed, h.sptr, h.incPtr]
  split_ifs
  · exact ⟨rfl, h.cells, h.size, h.endPtr, h.wptr, h.rptr, h.rptr, h.trackStale⟩
  · exact ⟨rfl, h.cells, h.size, h.endPtr, h.wptr, h.rptr, rfl, h.trackStale⟩

end Places

theorem refines_fifo2 :
    fifo.Refines fifo2 FifoCall.NoOverflow fun g f => Places g f ∧ f.Ok := by
  intro g f call ⟨h, hok⟩ hsum
  have hok' := (Fifo2.fifo2_refines f.size f f.lists call ⟨hok, rfl, rfl⟩ hsum).2.1
  cases call with
  | enq buf =>
    obtain ⟨hanswer, hnext⟩ := h.enq hok buf
    exact ⟨congrArg (FifoAnswer.mk · []) hanswer, hnext, hok'⟩
  | deq n autoDiscard => exact ⟨(h.deq n autoDiscard).1, (h.deq n autoDiscard).2, hok'⟩
  | read offset n stale =>
    refine ⟨?_, h, hok⟩
    show FifoAnswer.mk (g.read offset n stale).1 (g.read offset n stale).2 = _
    rw [h.read]
    rfl
  | discard n =>
    obtain ⟨hanswer, hnext⟩ := h.discard n
    exact ⟨congrArg (FifoAnswer.mk · []) hanswer, hnext, hok'⟩
  | flush => exact ⟨rfl, { h with wptr := rfl, rptr := rfl, sptr := rfl }, hok'⟩
  | bytesUsed stale => exact ⟨congrArg (FifoAnswer.mk · []) (h.bytesUsed stale), h, hok⟩
  | bytesFree => exact ⟨congrArg (FifoAnswer.mk · []) h.bytesFree, h, hok⟩

end Fifo

/-- On any sequence of calls, `fifo2.c` answers as the two lists do and holds their
bytes, and `fifo.c` with `FIFO_TRACK_STALE` gives the same answers. -/
theorem fifo_refinement (memory : ℕ → UInt8) (base size : ℕ) (hsize : 0 < size)
    (calls : List FifoCall) (hcalls : ∀ call ∈ calls, call.NoOverflow) :
    let cells := fun j => memory (base + j)
    fifo2.answers (.new cells size) calls = (fifoLists size).answers .empty calls ∧
    (fifo2.after (.new cells size) calls).lists = (fifoLists size).after .empty calls ∧
    fifo.answers (.init memory base size true) calls = (fifoLists size).answers .empty calls := by
  intro cells
  have hnew : Fifo2.Holds size (.new cells size) .empty := .new hsize
  obtain ⟨hanswers, hholds⟩ := (Fifo2.fifo2_refines size).run hnew hcalls
  obtain ⟨hsame, -⟩ := Fifo.refines_fifo2.run ⟨.init, hnew.1⟩ hcalls
  exact ⟨hanswers, hholds.2.2, hsame.trans hanswers⟩

/-- Calls that wrap a ring of four bytes. -/
theorem fifo_refinement_four :
    let calls : List FifoCall :=
      [.enq [1, 2, 3], .deq 2 false, .enq [4], .discard 1, .enq [4], .read 0 3 true]
    (∀ call ∈ calls, call.NoOverflow) ∧
    fifo2.answers (.new (fun _ => 0) 4) calls =
      [⟨3, []⟩, ⟨2, [1, 2]⟩, ⟨0, []⟩, ⟨1, []⟩, ⟨1, []⟩, ⟨3, [2, 3, 4]⟩] := by
  intro calls
  have hcalls : ∀ call ∈ calls, call.NoOverflow := by
    simp [calls, FifoCall.NoOverflow, Fifo2.sizeT]
  have hanswers := (fifo_refinement (fun _ => 0) 0 4 (by decide) calls hcalls).1
  exact ⟨hcalls, hanswers.trans (by decide)⟩

end BeepMusic.Audio
