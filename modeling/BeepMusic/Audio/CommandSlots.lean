import BeepMusic.Audio.Framing

/-!
How many commands there can be in the stream. `streambuf_cmd_enq` refuses a command
when `MAX_STREAM_CMDS` of them have not been discarded; but a slot without data is
left behind by the stale counters whether its command has been dequeued or not.
-/

namespace BeepMusic.Audio

open Lib

/-- `STREAMBUF_SIZE`. -/
def streambufSize : ℕ := 1024 * 1024

namespace Streambuf

variable {s s' : Streambuf}

/-- There are no more commands than slots but one, and the slots for putting in and for
taking out are the same only if there is none. -/
def SlotsBounded (s : Streambuf) : Prop :=
  s.cmdCnt ≤ maxStreamCmds ∧ (s.eslot = s.dslot → s.cmdCnt = 0)

/-- The calls of the decode thread: a command is dequeued with its own size and
discarded at once, and data is discarded that has been dequeued. -/
def DecodeThread (s : Streambuf) : StreambufCall → Prop
  | .dataEnq buf => buf.length ≤ s.fifo.bytesFree
  | .cmdEnq _ => True
  | .dataDeq _ _ => s.cmdTaken = none
  | .cmdDeq size => s.cmdTaken = none ∧
      (cmds s.pending).head?.all fun bytes => size = bytes.length
  | .discard size true => s.cmdTaken = none ∧ size ≤ s.dataTaken
  | .discard size false => s.cmdTaken = some size

instance (s : Streambuf) (e : StreambufCall) : Decidable (DecodeThread s e) :=
  match e with
  | .dataEnq _ => inferInstanceAs (Decidable (_ ≤ _))
  | .cmdEnq _ => inferInstanceAs (Decidable True)
  | .dataDeq _ _ => inferInstanceAs (Decidable (_ = _))
  | .cmdDeq _ | .discard _ true => inferInstanceAs (Decidable (_ ∧ _))
  | .discard _ false => inferInstanceAs (Decidable (_ = _))

/-- Eight commands are put in, one is taken out and discarded, and two more fit in. -/
def lappingCommands : List StreambufCall :=
  List.replicate 8 (.cmdEnq [1, 0, 0, 0]) ++
    [.cmdDeq 4, .discard 4 false, .cmdEnq [1, 0, 0, 0], .cmdEnq [1, 0, 0, 0]]

/-- Nine commands are pending, and the slot for putting in has caught up with the slot
for taking out. -/
theorem commands_lap :
    ∃ s, (streambuf streambufSize).ReachableUnder DecodeThread s ∧
      s.cmdCnt = 9 ∧ s.eslot = s.dslot ∧ ¬ s.SlotsBounded := by
  obtain ⟨s, -, hreach, hcnt, hslot⟩ := System.exists_reachableUnder (streambuf streambufSize)
    DecodeThread lappingCommands (fun s => s.cmdCnt = 9 ∧ s.eslot = s.dslot)
    (by decide +kernel) (by decide +kernel)
  refine ⟨s, hreach, hcnt, hslot, fun hbounded => ?_⟩
  have hle := hbounded.1
  rw [hcnt] at hle
  exact absurd hle (by decide)

/-- A command is put in only while less than `MAX_STREAM_CMDS` are pending. -/
def EnqueuesBelowMax (s : Streambuf) : StreambufCall → Prop
  | .cmdEnq _ => s.cmdCnt < maxStreamCmds
  | _ => True

instance (s : Streambuf) (e : StreambufCall) : Decidable (EnqueuesBelowMax s e) :=
  match e with
  | .cmdEnq _ => inferInstanceAs (Decidable (_ < _))
  | .dataEnq _ | .dataDeq _ _ | .cmdDeq _ | .discard _ _ => inferInstanceAs (Decidable True)

end Streambuf

end BeepMusic.Audio
