import Mathlib.Data.Int.Basic

/-!
Buffers and channels of `async.lua`. The operations here say what a call does
to the buffer, and whether it has to wait; the scheduler decides what waiting
means. A value that may be `nil` is an `Option`: storing `nil` leaves the list
of values alone and still counts.
-/

namespace BeepMusic.Async

open Option

inductive BufferKind
  | standard
  | sliding
  | dropping
  deriving DecidableEq

/-- A buffer. Without a size it never fills up. -/
structure Buffer (V : Type) where
  kind : BufferKind
  size : Option ℤ
  count : ℤ
  vals : List V

namespace Buffer

variable {V : Type}

/-- `Buffer:_init` and its two subclasses. -/
def new (kind : BufferKind) (size : Option ℤ) : Buffer V := ⟨kind, size, 0, []⟩

variable (b : Buffer V)

/-- `self.count == self.size`. -/
def full : Bool := decide (b.size = some b.count)

def push (v : Option V) : Buffer V :=
  { b with vals := b.vals ++ v.toList, count := b.count + 1 }

/-- The buffer without its first value. -/
def pop : Buffer V :=
  { b with vals := b.vals.tail, count := b.count - 1 }

/-- `put`: `none` is a put that has to wait; otherwise the new buffer and
whether `schedule_run` was called. -/
def put (v : Option V) : Option (Buffer V × Bool) :=
  match b.kind with
  | .standard => if b.full then none else some (b.push v, true)
  | .sliding => some ((if b.full then b.pop else b).push v, true)
  | .dropping => if b.full then some (b, false) else some (b.push v, true)

/-- `take`: `none` is a take that has to wait. -/
def take : Option (Option V × Buffer V) :=
  if b.count = 0 then none else some (b.vals.head?, b.pop)

variable {b b' : Buffer V} {v : Option V}

theorem put_size {sched : Bool} (h : b.put v = some (b', sched)) : b'.size = b.size := by
  rw [put] at h
  split at h
  · split at h
    · cases h
    · cases h
      rfl
  · cases h
    split <;> rfl
  · split at h
    · cases h
      rfl
    · cases h
      rfl

/-- A put that does not call `schedule_run` does nothing. -/
theorem put_eq_self (h : b.put v = some (b', false)) : b' = b := by
  rw [put] at h
  split at h <;> split at h <;> simp_all

theorem full_of_put_eq_none (h : b.put v = none) : b.full = true := by
  rw [put] at h
  split at h <;> split at h <;> simp_all

theorem take_size (h : b.take = some (v, b')) : b'.size = b.size := by
  rw [take] at h
  split at h
  · cases h
  · cases h
    rfl

/-- A take waits only for a value, and a take from a buffer that has none to
offer does not provide one. -/
theorem count_of_take_eq_none (h : b.take = none) : b.count = 0 := by
  rw [take] at h
  split at h
  · assumption
  · cases h

theorem count_lt_of_take (h : b.take = some (v, b')) : b'.count < b.count := by
  rw [take] at h
  split at h
  · cases h
  · cases h
    simp only [pop]
    omega

end Buffer

/-- A channel: a buffer that can be closed. -/
structure Channel (V : Type) where
  buffer : Buffer V
  closed : Bool

namespace Channel

variable {V : Type}

def new (kind : BufferKind) (size : Option ℤ) : Channel V := ⟨.new kind size, false⟩

variable (c : Channel V)

/-- `Channel:put`, with its return value. Whether the channel is closed is
looked at when the call is made, not again when it resumes after a wait. -/
def put (resumed : Bool) (v : Option V) : Option (Bool × Channel V × Bool) :=
  if c.closed && !resumed then some (false, c, false)
  else (c.buffer.put v).map fun r => (true, { c with buffer := r.1 }, r.2)

/-- `Channel:take`, with the same reading of `closed`. -/
def take (resumed : Bool) : Option (Option V × Channel V × Bool) :=
  if c.closed && decide (c.buffer.count = 0) && !resumed then some (none, c, false)
  else c.buffer.take.map fun r => (r.1, { c with buffer := r.2 }, true)

/-- `Channel:take_async`: like `take`, but `nil` instead of a wait. -/
def takeAsync : Option V × Channel V × Bool :=
  (c.take false).getD (none, c, false)

/-- A value is there to be taken. -/
def HasValue : Prop := 0 < c.buffer.count
deriving Decidable

/-- There is room for a value. -/
def HasRoom : Prop := ∀ n, c.buffer.size = some n → c.buffer.count < n

instance (c : Channel V) : Decidable c.HasRoom :=
  match h : c.buffer.size with
  | none => isTrue fun n hn => by rw [h] at hn; cases hn
  | some n => decidable_of_iff (c.buffer.count < n) (by simp [HasRoom, h])

variable {c c' : Channel V} {resumed r sched : Bool} {v : Option V}

/-- A call that has to wait does so because its wait condition fails. -/
theorem not_hasRoom_of_put (h : c.put resumed v = none) : ¬c.HasRoom := by
  rw [put] at h
  split at h
  · cases h
  · rw [map_eq_none_iff] at h
    have hfull : c.buffer.size = some c.buffer.count := by
      simpa [Buffer.full] using Buffer.full_of_put_eq_none h
    intro hroom
    have hlt := hroom _ hfull
    omega

theorem not_hasValue_of_take (h : c.take resumed = none) : ¬c.HasValue := by
  rw [take] at h
  split at h
  · cases h
  · rw [map_eq_none_iff] at h
    have hcount := Buffer.count_of_take_eq_none h
    simp only [HasValue]
    omega

theorem put_size (h : c.put resumed v = some (r, c', sched)) : c'.buffer.size = c.buffer.size := by
  rw [put] at h
  split at h
  · cases h
    rfl
  · obtain ⟨⟨b, sched'⟩, hput, heq⟩ := map_eq_some_iff.mp h
    cases heq
    exact Buffer.put_size hput

theorem take_size (h : c.take resumed = some (v, c', sched)) : c'.buffer.size = c.buffer.size := by
  rw [take] at h
  split at h
  · cases h
    rfl
  · obtain ⟨⟨w, b⟩, htake, heq⟩ := map_eq_some_iff.mp h
    cases heq
    exact Buffer.take_size htake

theorem put_eq_self (h : c.put resumed v = some (r, c', false)) : c' = c := by
  rw [put] at h
  split at h
  · cases h
    rfl
  · obtain ⟨⟨b, sched⟩, hput, heq⟩ := map_eq_some_iff.mp h
    cases heq
    rw [Buffer.put_eq_self hput]

theorem take_eq_self (h : c.take resumed = some (v, c', false)) : c' = c := by
  rw [take] at h
  split at h
  · cases h
    rfl
  · obtain ⟨r, -, heq⟩ := map_eq_some_iff.mp h
    cases heq

theorem not_hasRoom_put (h : c.put resumed v = some (r, c', sched)) (hroom : ¬c.HasRoom) :
    ¬c'.HasRoom := by
  rw [put] at h
  split at h
  · cases h
    exact hroom
  · obtain ⟨⟨b, sched'⟩, hput, heq⟩ := map_eq_some_iff.mp h
    cases heq
    intro hroom'
    apply hroom
    intro n hn
    have hlt : b.count < n := hroom' n (by simpa [Buffer.put_size hput] using hn)
    rw [Buffer.put] at hput
    split at hput
    · split at hput
      · cases hput
      · cases hput
        simp only [Buffer.push] at hlt
        omega
    · cases hput
      split at hlt <;> simp only [Buffer.push, Buffer.pop] at hlt <;> omega
    · split at hput
      · cases hput
        exact hlt
      · cases hput
        simp only [Buffer.push] at hlt
        omega

theorem not_hasValue_take (h : c.take resumed = some (v, c', sched)) (hval : ¬c.HasValue) :
    ¬c'.HasValue := by
  rw [take] at h
  split at h
  · cases h
    exact hval
  · obtain ⟨⟨w, b⟩, htake, heq⟩ := map_eq_some_iff.mp h
    cases heq
    have hlt := Buffer.count_lt_of_take htake
    simp only [HasValue] at hval ⊢
    omega

end Channel

end BeepMusic.Async
