import Mathlib.Algebra.BigOperators.Fin
import BeepMusic.Audio.Fifo
import BeepMusic.Lib.System

/-!
`streambuf.c`: commands to the decoder travel in the same fifo as the audio data. The
fifo does not tell them apart; for each stretch of data between two commands a slot
counts its bytes, and the slots are used in turn. A second set of slots counts the
bytes that have not been discarded.
-/

namespace BeepMusic.Audio

open Lib

def maxStreamCmds : ℕ := 8

abbrev Slot := Fin (maxStreamCmds + 1)

/-- `(slot == MAX_STREAM_CMDS) ? 0 : slot + 1`. -/
def Slot.next (slot : Slot) : Slot := slot + 1

/-- What is put into the stream: the data byte by byte, a command as a whole. -/
inductive Item
  | byte (b : UInt8)
  | cmd (bytes : Bytes)
  deriving DecidableEq

/-- The static variables; the last fields are for statements. Discarding is allowed and
not automatic, as it is unless the state is locked for a sync. -/
structure Streambuf where
  fifo : Fifo2
  slotCnt : Slot → ℕ
  cmdCnt : ℕ
  eslot : Slot
  dslot : Slot
  streaming : Bool
  cmdCntStale : ℕ
  sslot : Slot
  slotCntStale : Slot → ℕ
  /-- What has been put into the stream and taken out of it. -/
  enqueued : List Item
  dequeued : List Item
  /-- What the decode thread has taken and not discarded: a command, and data. -/
  cmdTaken : Option ℕ
  dataTaken : ℕ

/-- A command was refused, and the process exits, or a loop never ends. -/
abbrev Outcome := Option Streambuf

variable (s : Streambuf)

namespace Streambuf

def init (size : ℕ) : Streambuf where
  fifo := .init size
  slotCnt := fun _ => 0
  cmdCnt := 0
  eslot := 0
  dslot := 0
  streaming := false
  cmdCntStale := 0
  sslot := 0
  slotCntStale := fun _ => 0
  enqueued := []
  dequeued := []
  cmdTaken := none
  dataTaken := 0

/-- The inner loop of `streambuf_dec_cnt_stale`, which comes to `eslot` within a turn. -/
def skipEmpty (eslot : Slot) (stale : Slot → ℕ) : (fuel : ℕ) → Slot → ℕ → Slot × ℕ
  | 0, sslot, cnt => (sslot, cnt)
  | fuel + 1, sslot, cnt =>
    if sslot ≠ eslot ∧ stale sslot = 0 then
      skipEmpty eslot stale fuel sslot.next ((cnt + 2 ^ 32 - 1) % 2 ^ 32)
    else (sslot, cnt)

/-- The outer loop. Each of its turns but the last leaves a slot behind, so it never
ends if it has not ended after as many turns as there are slots. -/
def decCntStaleLoop : (fuel : ℕ) → Streambuf → (bytesLeft : ℕ) → Outcome
  | 0, _, _ => none
  | fuel + 1, s, bytesLeft =>
    if s.slotCntStale s.sslot ≤ bytesLeft then
      let bytesLeft := bytesLeft - s.slotCntStale s.sslot
      let stale := Function.update s.slotCntStale s.sslot 0
      let (sslot, cnt) := skipEmpty s.eslot stale maxStreamCmds s.sslot s.cmdCntStale
      let s := { s with slotCntStale := stale, sslot := sslot, cmdCntStale := cnt }
      if bytesLeft = 0 then some s else decCntStaleLoop fuel s bytesLeft
    else
      some { s with
        slotCntStale :=
          Function.update s.slotCntStale s.sslot (s.slotCntStale s.sslot - bytesLeft) }

def decCntStale (size : ℕ) : Outcome :=
  decCntStaleLoop (maxStreamCmds + 2) s size

def dataEnq (buf : Bytes) : Streambuf :=
  { s with
    streaming := true
    slotCnt := Function.update s.slotCnt s.eslot (s.slotCnt s.eslot + buf.length)
    slotCntStale := Function.update s.slotCntStale s.eslot (s.slotCntStale s.eslot + buf.length)
    fifo := (s.fifo.enq buf).2
    enqueued := s.enqueued ++ buf.map .byte }

/-- The bytes that `streambuf_data_deq` takes. -/
def dataSize (min max : ℕ) : ℕ :=
  let size := s.slotCnt s.dslot
  let size := if size < min then 0 else size
  if max < size then max else size

def dataDeq (min max : ℕ) : Streambuf :=
  let size := s.dataSize min max
  if size = 0 then s
  else
    let (_, buf, fifo) := s.fifo.deq size false
    { s with
      fifo := fifo
      slotCnt := Function.update s.slotCnt s.dslot (s.slotCnt s.dslot - size)
      dequeued := s.dequeued ++ buf.map .byte
      dataTaken := s.dataTaken + size }

/-- `none`: the process exits. -/
def cmdEnq (buf : Bytes) : Outcome :=
  if s.cmdCntStale ≠ maxStreamCmds ∧ buf.length < s.fifo.bytesFree then
    some { s with
      fifo := (s.fifo.enq buf).2
      eslot := s.eslot.next
      cmdCnt := s.cmdCnt + 1
      cmdCntStale := s.cmdCntStale + 1
      enqueued := s.enqueued ++ [.cmd buf] }
  else none

def cmdDeq (size : ℕ) : Streambuf :=
  if s.cmdCnt ≠ 0 ∧ s.slotCnt s.dslot = 0 then
    let (deqed, buf, fifo) := s.fifo.deq size false
    if deqed = 0 then s
    else
      { s with
        fifo := fifo
        dslot := s.dslot.next
        cmdCnt := s.cmdCnt - 1
        dequeued := s.dequeued ++ [.cmd buf]
        cmdTaken := some deqed }
  else s

def discard (size : ℕ) (data : Bool) : Outcome :=
  let (discarded, fifo) := s.fifo.discard size
  let s := { s with
    fifo := fifo
    cmdTaken := if data then s.cmdTaken else none
    dataTaken := if data then s.dataTaken - discarded else s.dataTaken }
  s.decCntStale (if data then discarded else 0)

end Streambuf

/-- A call. -/
inductive StreambufCall
  | dataEnq (buf : Bytes)
  | cmdEnq (buf : Bytes)
  | dataDeq (min max : ℕ)
  | cmdDeq (size : ℕ)
  | discard (size : ℕ) (data : Bool)

def Streambuf.step : StreambufCall → Outcome
  | .dataEnq buf => some (s.dataEnq buf)
  | .cmdEnq buf => s.cmdEnq buf
  | .dataDeq min max => some (s.dataDeq min max)
  | .cmdDeq size => some (s.cmdDeq size)
  | .discard size data => s.discard size data

/-- The buffer with the calls of all threads, one after the other: each of them holds
the lock. -/
def streambuf (size : ℕ) : System Streambuf StreambufCall where
  init := .init size
  step := Streambuf.step

end BeepMusic.Audio
