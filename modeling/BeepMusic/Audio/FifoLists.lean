import BeepMusic.Audio.Fifo
import BeepMusic.Lib.Component

/-!
What a fifo is for: two lists of bytes, those that have been read and are kept, and
those that have not been read. `fifo2.c` refines this.
-/

namespace BeepMusic.Audio

open Lib List

/-- The calls of a fifo. The bytes that `deq` and `read` copy out go to a buffer of the
caller's. -/
inductive FifoCall
  | enq (buf : Bytes)
  | deq (size : ℕ) (autoDiscard : Bool)
  | read (offset size : ℕ) (stale : Bool)
  | discard (size : ℕ)
  | flush
  | bytesUsed (stale : Bool)
  | bytesFree
  deriving DecidableEq

/-- The sum of a size and an offset is a size. -/
def FifoCall.NoOverflow : FifoCall → Prop
  | .read offset size _ => size + offset < Fifo2.sizeT
  | _ => True

/-- What a call returns, and the bytes that it copies out. -/
structure FifoAnswer where
  count : ℕ := 0
  buf : Bytes := []
  deriving DecidableEq

/-- The bytes that have been read, and those that have not. -/
structure FifoLists where
  stale : Bytes
  fresh : Bytes
  deriving DecidableEq

namespace FifoLists

def empty : FifoLists := ⟨[], []⟩

def retained (l : FifoLists) : Bytes := l.stale ++ l.fresh

/-- A fifo for at most `size - 1` bytes. -/
def perform (size : ℕ) (l : FifoLists) : FifoCall → FifoAnswer × FifoLists
  | .enq buf =>
    if l.retained.length + buf.length ≤ size - 1 then
      (⟨buf.length, []⟩, { l with fresh := l.fresh ++ buf })
    else ({}, l)
  | .deq n autoDiscard =>
    if n ≤ l.fresh.length then
      (⟨n, l.fresh.take n⟩,
        { stale := if autoDiscard then [] else l.stale ++ l.fresh.take n
          fresh := l.fresh.drop n })
    else ({}, l)
  | .read offset n stale =>
    let bytes := if stale then l.retained else l.fresh
    if offset + n ≤ bytes.length then (⟨n, (bytes.drop offset).take n⟩, l) else ({}, l)
  | .discard n => (⟨min n l.stale.length, []⟩, { l with stale := l.stale.drop n })
  | .flush => ({}, empty)
  | .bytesUsed stale => (⟨if stale then l.retained.length else l.fresh.length, []⟩, l)
  | .bytesFree => (⟨size - 1 - l.retained.length, []⟩, l)

end FifoLists

def fifoLists (size : ℕ) : Component FifoLists FifoCall FifoAnswer where
  perform := FifoLists.perform size

namespace Fifo2

/-- `fifo2_init`, on a memory with anything in it. -/
def new (base : ℕ → UInt8) (size : ℕ) : Fifo2 := ⟨base, size, 0, 0, 0⟩

def perform (f : Fifo2) : FifoCall → FifoAnswer × Fifo2
  | .enq buf => (⟨(f.enq buf).1, []⟩, (f.enq buf).2)
  | .deq size autoDiscard =>
    let (count, buf, g) := f.deq size autoDiscard
    (⟨count, buf⟩, g)
  | .read offset size stale =>
    let (count, buf) := f.read offset size stale
    (⟨count, buf⟩, f)
  | .discard size => (⟨(f.discard size).1, []⟩, (f.discard size).2)
  | .flush => ({}, f.flush)
  | .bytesUsed stale => (⟨f.bytesUsed stale, []⟩, f)
  | .bytesFree => (⟨f.bytesFree, []⟩, f)

end Fifo2

def fifo2 : Component Fifo2 FifoCall FifoAnswer where
  perform := Fifo2.perform

namespace Fifo2

/-! ### The bytes that are kept -/

/-- All bytes from `sptr` on. -/
def retained (f : Fifo2) : Bytes :=
  Ring.segment f.base f.size f.sptr (Ring.dist f.size f.sptr f.wptr)

/-- How many of them have been read. -/
def staleLength (f : Fifo2) : ℕ :=
  Ring.dist f.size f.sptr f.wptr - Ring.dist f.size f.rptr f.wptr

def lists (f : Fifo2) : FifoLists := ⟨f.retained.take f.staleLength, f.fresh⟩

variable {f : Fifo2}

theorem length_retained (f : Fifo2) : f.retained.length = f.bytesUsed true :=
  Ring.length_segment _ _ _ _

theorem Ok.fresh_eq (h : f.Ok) : f.fresh = f.retained.drop f.staleLength := by
  have hlt := Ring.dist_lt h.sptr h.wptr
  have hle := h.le
  have hrptr := Ring.advance_dist_sub h.sptr h.rptr h.wptr hle
  have hsplit : Ring.dist f.size f.sptr f.wptr =
      f.staleLength + Ring.dist f.size f.rptr f.wptr := by
    rw [staleLength]
    omega
  rw [retained, hsplit, Ring.segment_add h.sptr (by omega),
    drop_left' (Ring.length_segment _ _ _ _), staleLength, hrptr, fresh]

theorem Ok.retained_lists (h : f.Ok) : f.lists.retained = f.retained := by
  rw [FifoLists.retained, lists, h.fresh_eq, take_append_drop]

theorem length_stale (f : Fifo2) : f.lists.stale.length = f.staleLength := by
  rw [lists, length_take, retained, Ring.length_segment, staleLength]
  exact Nat.min_eq_left (Nat.sub_le _ _)

theorem Ok.lists_eq (h : f.Ok) {stale fresh : Bytes} (hretained : f.retained = stale ++ fresh)
    (hfresh : f.fresh.length = fresh.length) : f.lists = ⟨stale, fresh⟩ := by
  have hlength : f.staleLength = stale.length := by
    have htotal := congrArg List.length hretained
    rw [retained, Ring.length_segment, length_append] at htotal
    rw [Fifo2.fresh, Ring.length_segment] at hfresh
    rw [staleLength]
    omega
  rw [lists, h.fresh_eq, hretained, hlength, take_left, drop_left]

/-! ### One call -/

/-- Both fifos hold the same bytes. -/
def Holds (size : ℕ) (f : Fifo2) (l : FifoLists) : Prop := f.Ok ∧ f.size = size ∧ f.lists = l

variable {size : ℕ} {l : FifoLists}

theorem Holds.new {base : ℕ → UInt8} (h : 0 < size) : Holds size (new base size) .empty :=
  ⟨⟨h, h, h, Nat.le_refl _⟩, rfl, rfl⟩

theorem Holds.bytesUsed (h : Holds size f l) (stale : Bool) :
    f.bytesUsed stale = (if stale then l.retained else l.fresh).length := by
  obtain ⟨hok, -, rfl⟩ := h
  cases stale with
  | true => exact (length_retained f).symm.trans (congrArg List.length hok.retained_lists.symm)
  | false => exact (length_fresh f).symm

theorem Holds.bytesFree (h : Holds size f l) : f.bytesFree = size - 1 - l.retained.length := by
  have hused := h.bytesUsed true
  obtain ⟨hok, rfl, rfl⟩ := h
  have hfree := hok.bytesFree_eq
  rw [bytesUsed_eq, if_pos rfl] at hused
  simp only [if_true] at hused
  omega

theorem Holds.enq (h : Holds size f l) (buf : Bytes) :
    (f.perform (.enq buf)).1 = (l.perform size (.enq buf)).1 ∧
      Holds size (f.perform (.enq buf)).2 (l.perform size (.enq buf)).2 := by
  have hused := h.bytesUsed true
  obtain ⟨hok, rfl, rfl⟩ := h
  have hring := hok.bytesFree_eq
  rw [bytesUsed_eq] at hused
  simp only [if_true] at hused
  simp only [perform, FifoLists.perform]
  split_ifs with hfit
  · have hroom : buf.length ≤ f.bytesFree := by omega
    have hfar : Ring.dist f.size f.sptr f.wptr + buf.length < f.size := by omega
    obtain ⟨base, hwritten, heq⟩ := hok.enq_eq hroom
    obtain ⟨hok', hfresh⟩ := hok.enq hroom
    have hretained : (f.enq buf).2.retained = f.lists.stale ++ (f.lists.fresh ++ buf) := by
      rw [heq, ← append_assoc, ← FifoLists.retained, hok.retained_lists]
      exact hwritten.segment_dist hok.sptr hok.wptr hfar
    refine ⟨by rw [heq], hok', by rw [heq], hok'.lists_eq hretained ?_⟩
    rw [hfresh]
    rfl
  · have hfull : f.enq buf = (0, f) := by
      rw [Fifo2.enq, if_pos (by omega)]
    rw [hfull]
    exact ⟨rfl, hok, rfl, rfl⟩

theorem Holds.deq (h : Holds size f l) (n : ℕ) (autoDiscard : Bool) :
    (f.perform (.deq n autoDiscard)).1 = (l.perform size (.deq n autoDiscard)).1 ∧
      Holds size (f.perform (.deq n autoDiscard)).2 (l.perform size (.deq n autoDiscard)).2 := by
  obtain ⟨hok, rfl, rfl⟩ := h
  have hlength : f.lists.fresh.length = f.bytesUsed false := length_fresh f
  simp only [perform, FifoLists.perform]
  by_cases hn : n ≤ f.lists.fresh.length
  · have hused : n ≤ f.bytesUsed false := by omega
    have hrest : f.fresh.drop n = _ := Ring.drop_segment_dist hok.rptr hok.wptr hused
    rw [if_pos hn, hok.deq_eq hused autoDiscard]
    refine ⟨rfl, hok.moved hused autoDiscard, rfl, ?_⟩
    apply (hok.moved hused autoDiscard).lists_eq _ (congrArg List.length hrest.symm)
    cases autoDiscard with
    | true => exact hrest.symm
    | false =>
      show f.retained = f.lists.stale ++ f.lists.fresh.take n ++ f.lists.fresh.drop n
      rw [append_assoc, take_append_drop, ← FifoLists.retained, hok.retained_lists]
  · have hshort : f.deq n autoDiscard = (0, [], f) := by
      rw [Fifo2.deq, if_pos (by omega)]
    rw [if_neg hn, hshort]
    exact ⟨rfl, hok, rfl, rfl⟩

theorem Ok.read_eq {offset n : ℕ} {stale : Bool} (h : f.Ok) (hsum : n + offset < sizeT) :
    f.read offset n stale =
      if offset + n ≤ (if stale then f.retained else f.fresh).length then
        (n, ((if stale then f.retained else f.fresh).drop offset).take n)
      else (0, []) := by
  -- both lists go from one of the pointers to the write pointer
  have hbytes : (if stale then f.retained else f.fresh) =
      Ring.segment f.base f.size (if stale then f.sptr else f.rptr)
        (Ring.dist f.size (if stale then f.sptr else f.rptr) f.wptr) := by
    cases stale <;> rfl
  have hptr : (if stale then f.sptr else f.rptr) < f.size := by
    cases stale
    · exact h.rptr
    · exact h.sptr
  have hlt := Ring.dist_lt hptr h.wptr
  rw [hbytes, Ring.length_segment, Fifo2.read, Nat.mod_eq_of_lt hsum, bytesUsed_eq]
  by_cases hle : offset + n ≤ Ring.dist f.size (if stale then f.sptr else f.rptr) f.wptr
  · have hadvance := Ring.advance_lt hptr (show offset ≤ f.size by omega)
    rw [if_neg (by omega), if_pos hle, Ring.take_drop_segment hptr hle (by omega)]
    exact congrArg _ (copyOut_eq hadvance (by omega))
  · rw [if_pos (by omega), if_neg hle]

theorem Holds.read (h : Holds size f l) {offset n : ℕ} {stale : Bool}
    (hsum : n + offset < sizeT) :
    (f.perform (.read offset n stale)).1 = (l.perform size (.read offset n stale)).1 ∧
      Holds size (f.perform (.read offset n stale)).2
        (l.perform size (.read offset n stale)).2 := by
  obtain ⟨hok, rfl, rfl⟩ := h
  simp only [perform, FifoLists.perform]
  rw [hok.retained_lists, hok.read_eq hsum, show f.lists.fresh = f.fresh from rfl]
  by_cases hle : offset + n ≤ (if stale then f.retained else f.fresh).length
  · rw [if_pos hle, if_pos hle]
    exact ⟨rfl, hok, rfl, rfl⟩
  · rw [if_neg hle, if_neg hle]
    exact ⟨rfl, hok, rfl, rfl⟩

theorem Holds.discard (h : Holds size f l) (n : ℕ) :
    (f.perform (.discard n)).1 = (l.perform size (.discard n)).1 ∧
      Holds size (f.perform (.discard n)).2 (l.perform size (.discard n)).2 := by
  obtain ⟨hok, rfl, rfl⟩ := h
  have hstale := length_stale f
  have hok' := (hok.discard n).1
  have hfresh := congrArg List.length (hok.discard n).2
  have hdiscard : f.discard n = if f.staleLength ≤ n then (f.staleLength, { f with sptr := f.rptr })
      else (n, { f with sptr := Ring.advance f.size f.sptr n }) := rfl
  simp only [perform, FifoLists.perform]
  have hcount : (f.discard n).1 = min n f.staleLength := by
    rw [hdiscard]
    split_ifs with hdiff
    · exact (Nat.min_eq_right hdiff).symm
    · exact (Nat.min_eq_left (Nat.le_of_not_le hdiff)).symm
  have hretained : (f.discard n).2.retained = f.lists.stale.drop n ++ f.lists.fresh := by
    rw [hdiscard]
    split_ifs with hdiff
    · rw [drop_eq_nil_of_le (by omega), nil_append]
      rfl
    · rw [← drop_append_of_le_length (by omega), ← FifoLists.retained,
        hok.retained_lists]
      have hkept : n ≤ Ring.dist f.size f.sptr f.wptr := by
        rw [staleLength] at hdiff
        omega
      exact (Ring.drop_segment_dist hok.sptr hok.wptr hkept).symm
  refine ⟨by rw [hcount, hstale], hok', ?_, hok'.lists_eq hretained hfresh⟩
  rw [hdiscard]
  split_ifs <;> rfl

/-! ### The bytes that have been read -/

theorem Ok.stale_enq (h : f.Ok) (buf : Bytes) : (f.enq buf).2.lists.stale = f.lists.stale := by
  have hlists := (Holds.enq ⟨h, rfl, rfl⟩ buf).2.2.2
  simp only [perform, FifoLists.perform] at hlists
  rw [hlists]
  split_ifs <;> rfl

theorem Ok.lists_enq {buf : Bytes} (h : f.Ok)
    (hfit : f.lists.retained.length + buf.length ≤ f.size - 1) :
    (f.enq buf).1 = buf.length ∧ (f.enq buf).2.Ok ∧ (f.enq buf).2.size = f.size ∧
      (f.enq buf).2.lists = ⟨f.lists.stale, f.lists.fresh ++ buf⟩ := by
  obtain ⟨hanswer, hok, hsize, hlists⟩ := Holds.enq ⟨h, rfl, rfl⟩ buf
  simp only [perform, FifoLists.perform, if_pos hfit] at hanswer hok hsize hlists
  exact ⟨congrArg FifoAnswer.count hanswer, hok, hsize, hlists⟩

theorem Ok.stale_deq {n : ℕ} (h : f.Ok) (hn : n ≤ f.bytesUsed false) :
    (f.deq n false).2.2.lists.stale = f.lists.stale ++ (f.deq n false).2.1 := by
  have hlists := (Holds.deq ⟨h, rfl, rfl⟩ n false).2.2.2
  have hfresh : n ≤ f.lists.fresh.length := by
    rw [lists, length_fresh]
    exact hn
  simp only [perform, FifoLists.perform, if_pos hfresh] at hlists
  rw [hlists, h.deq_eq hn]
  rfl

theorem Ok.retained_deq (h : f.Ok) (n : ℕ) :
    (f.deq n false).2.2.Ok ∧ (f.deq n false).2.2.retained = f.retained := by
  by_cases hn : n ≤ f.bytesUsed false
  · rw [h.deq_eq hn]
    exact ⟨h.moved hn false, rfl⟩
  · rw [Fifo2.deq, if_pos (by omega)]
    exact ⟨h, rfl⟩

theorem Ok.discard_count (h : f.Ok) (n : ℕ) :
    (f.discard n).1 = min n f.lists.stale.length :=
  congrArg FifoAnswer.count (Holds.discard ⟨h, rfl, rfl⟩ n).1

theorem Ok.stale_discard (h : f.Ok) (n : ℕ) :
    (f.discard n).2.lists.stale = f.lists.stale.drop n :=
  congrArg FifoLists.stale (Holds.discard ⟨h, rfl, rfl⟩ n).2.2.2

/-- `fifo2.c` is the pair of lists. -/
theorem fifo2_refines (size : ℕ) :
    fifo2.Refines (fifoLists size) FifoCall.NoOverflow (Holds size) := by
  intro f l call h hsum
  cases call with
  | enq buf => exact h.enq buf
  | deq n autoDiscard => exact h.deq n autoDiscard
  | read offset n stale => exact h.read hsum
  | discard n => exact h.discard n
  | flush =>
    obtain ⟨hok, rfl, rfl⟩ := h
    have hsize : 0 < f.size := Nat.zero_lt_of_lt hok.wptr
    exact ⟨rfl, ⟨hsize, hsize, hsize, Nat.le_refl _⟩, rfl, rfl⟩
  | bytesUsed stale =>
    refine ⟨?_, h⟩
    show (⟨f.bytesUsed stale, []⟩ : FifoAnswer) = _
    rw [h.bytesUsed stale]
    cases stale <;> rfl
  | bytesFree =>
    refine ⟨?_, h⟩
    show (⟨f.bytesFree, []⟩ : FifoAnswer) = _
    rw [h.bytesFree]
    rfl

theorem Ok.size_perform (h : f.Ok) (call : FifoCall) (hsum : call.NoOverflow) :
    (f.perform call).2.size = f.size :=
  (fifo2_refines f.size f f.lists call ⟨h, rfl, rfl⟩ hsum).2.2.1

end Fifo2

end BeepMusic.Audio
