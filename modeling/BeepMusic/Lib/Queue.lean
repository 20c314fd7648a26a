import Mathlib.Data.List.DropRight

/-!
Queues described by their history. A log keeps the values that were put into a
queue and those that were taken from it, in order, and what the queue stores is
stated in terms of the log: all that was not taken yet, for a queue that loses
nothing, or the latest values, for one that makes room by dropping the oldest.
-/

namespace BeepMusic.Lib

open List

/-- The history of a queue. `gone` is the number of values put up to the one
that was taken last. -/
structure QueueLog (α : Type) where
  put : List α
  taken : List α
  gone : ℕ

namespace QueueLog

variable {α : Type} {log : QueueLog α} {stored : List α} {v : α} {n : ℕ}

def empty : QueueLog α := ⟨[], [], 0⟩

def recordPut (log : QueueLog α) (v : Option α) : QueueLog α :=
  { log with put := log.put ++ v.toList }

/-- The first of the `length` values stored was taken: it is the one put `length`
values before the end. -/
def recordTake (log : QueueLog α) (v : Option α) (length : ℕ) : QueueLog α where
  put := log.put
  taken := log.taken ++ v.toList
  gone := log.put.length - length + 1

/-- The values put after the one that was taken last. -/
def since (log : QueueLog α) : List α := log.put.drop log.gone

/-- Nothing is lost: what was put has been taken or is stored. -/
def Fifo (log : QueueLog α) (stored : List α) : Prop := log.taken ++ stored = log.put

theorem Fifo.empty : Fifo (.empty : QueueLog α) [] := rfl

theorem Fifo.recordPut (h : log.Fifo stored) (v : α) :
    (log.recordPut (some v)).Fifo (stored ++ [v]) := by
  have hput : log.taken ++ stored = log.put := h
  simp [Fifo, QueueLog.recordPut, ← hput]

theorem Fifo.recordTake (h : log.Fifo (v :: stored)) (length : ℕ) :
    (log.recordTake (some v) length).Fifo stored := by
  have hput : log.taken ++ v :: stored = log.put := h
  simp [Fifo, QueueLog.recordTake, ← hput]

/-- The latest values are stored, at most `n` of them, of those put after the one
that was taken last. -/
structure Latest (n : ℕ) (log : QueueLog α) (stored : List α) : Prop where
  gone_le : log.gone ≤ log.put.length
  getLast_gone : (log.put.take log.gone).getLast? = log.taken.getLast?
  stored_eq : stored = log.since.rtake n

theorem Latest.empty : Latest n (.empty : QueueLog α) [] where
  gone_le := le_rfl
  getLast_gone := rfl
  stored_eq := by simp [since, QueueLog.empty]

section

variable (h : log.Latest n stored)
include h

theorem Latest.length : stored.length = min n log.since.length := by
  rw [h.stored_eq, rtake, length_drop]
  omega

theorem Latest.since_recordPut (v : α) : (log.recordPut (some v)).since = log.since ++ [v] := by
  simp [since, QueueLog.recordPut, drop_append_of_le_length h.gone_le]

/-- The two fields about the value taken last do not see a put. -/
theorem Latest.of_stored {stored' : List α} (hstored : stored' = (log.since ++ [v]).rtake n) :
    (log.recordPut (some v)).Latest n stored' where
  gone_le := by
    have hle := h.gone_le
    simp only [QueueLog.recordPut, Option.toList_some, length_append, length_singleton]
    omega
  getLast_gone := by
    simp [QueueLog.recordPut, take_append_of_le_length h.gone_le, h.getLast_gone]
  stored_eq := by rw [hstored, h.since_recordPut]

/-- With room, a put keeps all that is stored. -/
theorem Latest.recordPut (hroom : stored.length < n) (v : α) :
    (log.recordPut (some v)).Latest n (stored ++ [v]) := by
  apply h.of_stored
  have hlen := h.length
  have hall : log.since.length - n = 0 := by omega
  have hall' : (log.since ++ [v]).length - n = 0 := by
    rw [length_append, length_singleton]
    omega
  rw [h.stored_eq, rtake, rtake, hall, hall', drop_zero, drop_zero]

/-- Without room, a put drops the oldest value. -/
theorem Latest.recordPut_tail (hn : 1 ≤ n) (hfull : stored.length = n) (v : α) :
    (log.recordPut (some v)).Latest n (stored.tail ++ [v]) := by
  apply h.of_stored
  have hlen := h.length
  have hdrop : log.since.length - n + 1 = log.since.length - (n - 1) := by omega
  calc
    stored.tail ++ [v] = log.since.rtake (n - 1) ++ [v] := by
      rw [h.stored_eq, rtake, tail_drop, hdrop, rtake]
    _ = (log.since ++ [v]).rtake (n - 1 + 1) := (rtake_concat_succ _ _ _).symm
    _ = (log.since ++ [v]).rtake n := by rw [Nat.sub_add_cancel hn]

end

/-- A take leaves exactly the values put after the one it takes. -/
theorem Latest.recordTake (h : log.Latest n (v :: stored)) :
    (log.recordTake (some v) (v :: stored).length).Latest n stored := by
  have hlen := h.length
  obtain ⟨before, hbefore⟩ : (v :: stored) <:+ log.put := by
    rw [h.stored_eq]
    exact (drop_suffix _ _).trans (drop_suffix _ _)
  have hgone : log.put.length - (v :: stored).length + 1 = (before ++ [v]).length := by
    simp [← hbefore]
  have hput : log.put = before ++ [v] ++ stored := by simp [← hbefore]
  have hsince : (log.recordTake (some v) (v :: stored).length).since = stored := by
    rw [since, QueueLog.recordTake, hgone]
    simp [hput]
  refine ⟨?_, ?_, ?_⟩
  · rw [QueueLog.recordTake, hgone]
    simp [hput]
  · rw [QueueLog.recordTake, hgone]
    simp only [hput, take_left, Option.toList_some, getLast?_append_cons,
      getLast?_singleton]
  · rw [length_cons] at hlen
    have hall : stored.length - n = 0 := by omega
    rw [hsince, rtake, hall, drop_zero]

end QueueLog

end BeepMusic.Lib
