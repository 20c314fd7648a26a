import BeepMusic.Lib.System

/-!
Reading the inputs of a module over I2C. The module numbers its reports modulo 256 and repeats
the current one until an acknowledgement arrives; `do_read` tells a repeated report by its
number.
-/

namespace BeepMusic.Beepio

open Lib List

inductive ExitCause
  | tooManyReads
  | unexpectedSeq
  deriving DecidableEq

/-- The reader, and the module with the report that it sends. Reports are counted from 0 without
the modulus; those that have been read, acknowledged and processed are kept in order. -/
structure InputReader where
  inputExpectedSeq : ℕ
  sequentialReads : ℕ
  exited : Option ExitCause
  current : ℕ
  read : List ℕ
  acked : List ℕ
  processed : List ℕ

/-- A call of `do_read`, by the interrupt or by the timer that the call before has set. The read
fails (`none`), or its acknowledgement arrives or is lost. -/
structure ReadCall where
  interrupt : Bool
  answer : Option Bool

variable (s : InputReader)

namespace InputReader

/-- The write to `I2C_INPUT_ACK_REGISTER`. -/
def ack (arrives : Bool) : InputReader :=
  { s with
    acked := s.acked ++ [s.current]
    current := if arrives then s.current + 1 else s.current }

def doRead (answer : Option Bool) : InputReader :=
  let s := { s with sequentialReads := s.sequentialReads + 1 }
  if 20 < s.sequentialReads then { s with exited := some .tooManyReads }
  else
    match answer with
    | none => s
    | some arrives =>
      let seq := s.current % 256
      let s := { s with read := s.read ++ [s.current] }
      if seq ≠ s.inputExpectedSeq then
        if seq = 255 ∧ s.inputExpectedSeq ≠ 0 ∨ seq + 1 ≠ s.inputExpectedSeq then
          { s with exited := some .unexpectedSeq }
        else s.ack arrives
      else
        ack { s with
          inputExpectedSeq := (s.inputExpectedSeq + 1) % 256
          processed := s.processed ++ [s.current] } arrives

/-- The acknowledgement of the last report before the numbers start again is not lost. -/
def AcksLast (call : ReadCall) : Prop :=
  call.answer = some false → s.current % 256 ≠ 255
deriving Decidable

/-- The first `n` reports have been read and processed, and all but perhaps the last of them
have left the module. -/
structure InOrder (n : ℕ) (s : InputReader) : Prop where
  exited : s.exited ≠ some .unexpectedSeq
  acked : s.acked = s.read
  processed : s.processed = List.range n
  seq : s.inputExpectedSeq = n % 256
  read : ∀ i, i ∈ s.read ↔ i < n
  current : n = s.current ∨ n = s.current + 1 ∧ s.current % 256 ≠ 255

theorem InOrder.doRead {s : InputReader} {n : ℕ} (h : InOrder n s) {answer : Option Bool}
    (hlast : answer = some false → s.current % 256 ≠ 255) : ∃ n, InOrder n (s.doRead answer) := by
  have hseq := h.seq
  have hcurrent := h.current
  simp only [InputReader.doRead]
  split
  · exact ⟨n, { h with exited := by simp }⟩
  cases answer with
  | none => exact ⟨n, { h with }⟩
  | some arrives =>
    dsimp only
    split
    · -- a report that has been processed is read again
      obtain ⟨hn, hne⟩ := hcurrent.resolve_left (by omega)
      rw [if_neg (by omega)]
      refine ⟨n, { h with acked := congrArg (· ++ _) h.acked, read := fun i => ?_, current := ?_ }⟩
      · simp only [ack, mem_append, mem_singleton, h.read i]
        omega
      · cases arrives with
        | true => exact .inl hn
        | false => exact .inr ⟨hn, hne⟩
    · obtain rfl : n = s.current := by omega
      refine ⟨s.current + 1, h.exited, congrArg (· ++ _) h.acked, ?_, ?_, fun i => ?_, ?_⟩
      · simp [ack, h.processed, range_succ]
      · simp only [ack, hseq]
        omega
      · simp only [ack, mem_append, mem_singleton, h.read i]
        omega
      · cases arrives with
        | true => exact .inl rfl
        | false => exact .inr ⟨rfl, hlast rfl⟩

end InputReader

def inputReader : System InputReader ReadCall where
  init := ⟨0, 0, none, 0, [], [], []⟩
  step s call :=
    if s.exited ≠ none then none
    else some ((if call.interrupt then { s with sequentialReads := 0 } else s).doRead call.answer)

/-- If no acknowledgement of a report with the number 255 is lost, the reader never exits for a
sequence number, acknowledges every report as often as it is read, and has processed those that
it has read once each and in order, among them all that the module does not send any more. -/
theorem reports_processed_once (h : inputReader.ReachableUnder InputReader.AcksLast s) :
    s.exited ≠ some .unexpectedSeq ∧ s.acked = s.read ∧
      ∃ n, s.processed = List.range n ∧ (∀ i, i ∈ s.read ↔ i < n) ∧ s.current ≤ n := by
  obtain ⟨n, hn⟩ : ∃ n, s.InOrder n := by
    refine h.invariant (I := fun s => ∃ n, s.InOrder n)
      ⟨0, nofun, rfl, rfl, rfl, by simp [inputReader], .inl rfl⟩ ?_
    rintro s call s' ⟨n, hn⟩ hok hstep
    obtain ⟨-, hstep⟩ := Option.ite_none_left_eq_some.mp hstep
    cases hstep
    split
    · exact InputReader.InOrder.doRead (s := { s with sequentialReads := 0 }) { hn with } hok
    · exact hn.doRead hok
  have hcurrent := hn.current
  exact ⟨hn.exited, hn.acked, n, hn.processed, hn.read, by omega⟩

theorem reports_processed_once_repeated :
    ∃ s, inputReader.ReachableUnder InputReader.AcksLast s ∧ s.read = [0, 0, 1] ∧
      s.acked = s.read := by
  obtain ⟨s, -, hs, hread⟩ := inputReader.exists_reachableUnder InputReader.AcksLast
    [⟨true, some false⟩, ⟨false, some true⟩, ⟨false, none⟩, ⟨false, some true⟩]
    (fun s => s.read = [0, 0, 1]) (by decide +kernel) (by decide +kernel)
  exact ⟨s, hs, hread, (reports_processed_once s hs).2.1⟩

/-- The acknowledgement of report 255 is lost, and the report is read again. -/
theorem repeated_report_exits :
    ∃ s, inputReader.Reachable s ∧ s.sequentialReads = 2 ∧ s.read.getLast? = some 255 ∧
      s.exited = some .unexpectedSeq :=
  inputReader.exists_reachable
    (replicate 255 ⟨true, some true⟩ ++ [⟨true, some false⟩, ⟨false, some true⟩]) _
    (by decide +kernel)

end BeepMusic.Beepio
