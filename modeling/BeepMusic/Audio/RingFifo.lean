import BeepMusic.Audio.Fifo

/-!
`struct fifo` of `audio/fifo.c`: the two pointers of a ring whose cells are kept elsewhere.
The queue of messages to the decode thread and the buffer of decoded audio both use it.
The pointers wrap only when they come to the end exactly, so a caller moves them up to the
end and then on.
-/

namespace BeepMusic.Audio

open Lib

structure RingFifo where
  size : ℕ
  rptr : ℕ
  wptr : ℕ
  deriving DecidableEq

namespace RingFifo

def init (size : ℕ) : RingFifo := ⟨size, 0, 0⟩

variable (f : RingFifo)

def bytesUsed : ℕ :=
  if f.rptr ≤ f.wptr then f.wptr - f.rptr else f.wptr + f.size - f.rptr

def bytesFree : ℕ :=
  if f.wptr < f.rptr then f.rptr - f.wptr - 1 else f.rptr + f.size - f.wptr - 1

def bytesUntilRptrWrap : ℕ := f.size - f.rptr

def bytesUntilWptrWrap : ℕ := f.size - f.wptr

def rptrIncby (incby : ℕ) : RingFifo :=
  if f.rptr + incby = f.size then { f with rptr := 0 } else { f with rptr := f.rptr + incby }

def wptrIncby (incby : ℕ) : RingFifo :=
  if f.wptr + incby = f.size then { f with wptr := 0 } else { f with wptr := f.wptr + incby }

/-- The pointers are in the ring. -/
structure Ok (f : RingFifo) : Prop where
  rptr : f.rptr < f.size
  wptr : f.wptr < f.size

variable {f : RingFifo} {n : ℕ}

theorem ok_init {size : ℕ} (h : 0 < size) : (init size).Ok := ⟨h, h⟩

theorem bytesUsed_eq (f : RingFifo) : f.bytesUsed = Ring.dist f.size f.rptr f.wptr := rfl

theorem Ok.bytesUsed_lt (h : f.Ok) : f.bytesUsed < f.size := Ring.dist_lt h.rptr h.wptr

theorem Ok.bytesFree_add (h : f.Ok) : f.bytesFree + f.bytesUsed + 1 = f.size := by
  have hr := h.rptr
  have hw := h.wptr
  rw [bytesFree, bytesUsed]
  split_ifs <;> omega

theorem rptrIncby_eq (h : f.rptr + n ≤ f.size) :
    f.rptrIncby n = { f with rptr := Ring.advance f.size f.rptr n } := by
  rw [rptrIncby, Ring.advance]
  split_ifs with hend hge hge
  · rw [hend, Nat.sub_self]
  · omega
  · omega
  · rfl

theorem wptrIncby_eq (h : f.wptr + n ≤ f.size) :
    f.wptrIncby n = { f with wptr := Ring.advance f.size f.wptr n } := by
  rw [wptrIncby, Ring.advance]
  split_ifs with hend hge hge
  · rw [hend, Nat.sub_self]
  · omega
  · omega
  · rfl

theorem Ok.rptrIncby (h : f.Ok) (hn : f.rptr + n ≤ f.size) : (f.rptrIncby n).Ok := by
  have hr := h.rptr
  rw [rptrIncby_eq hn]
  exact ⟨Ring.advance_lt hr (by omega), h.wptr⟩

theorem Ok.wptrIncby (h : f.Ok) (hn : f.wptr + n ≤ f.size) : (f.wptrIncby n).Ok := by
  have hw := h.wptr
  rw [wptrIncby_eq hn]
  exact ⟨h.rptr, Ring.advance_lt hw (by omega)⟩

theorem Ok.bytesUsed_rptrIncby (h : f.Ok) (hn : f.rptr + n ≤ f.size) (hused : n ≤ f.bytesUsed) :
    (f.rptrIncby n).bytesUsed = f.bytesUsed - n := by
  rw [rptrIncby_eq hn]
  exact Ring.dist_advance_left h.rptr h.wptr hused

theorem Ok.bytesUsed_wptrIncby (h : f.Ok) (hn : f.wptr + n ≤ f.size) (hfree : n ≤ f.bytesFree) :
    (f.wptrIncby n).bytesUsed = f.bytesUsed + n := by
  have hsum := h.bytesFree_add
  rw [wptrIncby_eq hn]
  exact Ring.dist_advance_right h.rptr h.wptr (by rw [← bytesUsed_eq]; omega)

end RingFifo

end BeepMusic.Audio
