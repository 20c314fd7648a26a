import BeepMusic.Audio.CommandSlots
import BeepMusic.Lib.Word

/-!
`audio_sync_state_send` and `audio_sync_state_recv`: a player hands its stream buffer
over to another one. The sender's buffer is frozen, so that nothing is discarded; its
stale counters and all bytes that have not been discarded are sent packet by packet. The
receiver puts the bytes into its own fifo, and when it resumes it takes the counters.

Numbers are sent as they stand in memory, the most significant byte first.
-/

namespace BeepMusic.Audio

open Lib

inductive SyncState
  | idle
  | readySyncTo
  | sendAudioState
  | sendSbState
  | sendSbData
  | sendDone
  | sendError
  | readySyncWait
  | recvAudioState
  | recvSbState
  | recvSbData
  | recvDone
  | recvError
  deriving DecidableEq

/-- What the two functions return: 0, 1 and -1. -/
inductive SyncResult
  | done
  | again
  | error
  deriving DecidableEq

/-- `streambuf_state_sync`. -/
structure StateSync where
  cmdCntStale : ℕ
  eslot : ℕ
  sslot : ℕ
  used : ℕ
  deriving DecidableEq

/-- The stream buffer of a player and the static variables that a sync uses. -/
structure Syncer where
  buf : Streambuf
  allowDiscard : Bool
  discardDataOnThaw : ℕ
  discardCmdOnThaw : ℕ
  stateSync : StateSync
  syncState : SyncState
  restoreStateOnResume : Bool
  currentTrackJiffies : ℕ
  syncDiscardedSamples : ℕ
  /-- `sync_offset` of the sender. -/
  sendOffset : ℕ
  /-- `sync_offset` of the receiver. -/
  recvOffset : ℕ
  syncDataLen : ℕ

namespace Syncer

/-- A player that has not synced before. -/
def init (buf : Streambuf) : Syncer where
  buf := buf
  allowDiscard := true
  discardDataOnThaw := 0
  discardCmdOnThaw := 0
  stateSync := ⟨0, 0, 0, 0⟩
  syncState := .idle
  restoreStateOnResume := false
  currentTrackJiffies := 0
  syncDiscardedSamples := 0
  sendOffset := 0
  recvOffset := 0
  syncDataLen := 0

/-! ### The stream buffer -/

variable (a : Syncer)

def discard (size : ℕ) (data : Bool) : Option Syncer :=
  if a.allowDiscard then
    (a.buf.discard size data).map fun buf => { a with buf := buf }
  else
    let discarded : ℤ := a.buf.fifo.bytesUsed true - a.buf.fifo.bytesUsed false -
      a.discardDataOnThaw - a.discardCmdOnThaw
    let discarded := (discarded % Fifo2.sizeT).toNat
    let discarded := if discarded < size then discarded else size
    if data then some { a with discardDataOnThaw := a.discardDataOnThaw + discarded }
    else some { a with discardCmdOnThaw := a.discardCmdOnThaw + discarded }

/-- `streambuf_lock_state`. -/
def lockState : (lock : Bool) → Option Syncer
  | true =>
    some { a with
      allowDiscard := false
      stateSync := ⟨a.buf.cmdCntStale, a.buf.eslot, a.buf.sslot, a.buf.fifo.bytesUsed true⟩ }
  | false =>
    (a.buf.decCntStale a.discardDataOnThaw).map fun buf =>
      { a with
        allowDiscard := true
        buf := { buf with
          fifo := (buf.fifo.discard (a.discardDataOnThaw + a.discardCmdOnThaw)).2 }
        discardDataOnThaw := 0
        discardCmdOnThaw := 0 }

/-- `streambuf_flush`: all counters and slots are 0, and nothing has been put into the
stream since. -/
def flush : Syncer :=
  { a with
    buf := { Streambuf.init a.buf.fifo.size with
      fifo := a.buf.fifo.flush
      streaming := a.buf.streaming }
    allowDiscard := true
    discardDataOnThaw := 0
    discardCmdOnThaw := 0 }

/-- `sizeof(streambuf_slot_cnt_stale) + sizeof(streambuf_state_sync)`. -/
def sbStateSize : ℕ := 4 * (maxStreamCmds + 1) + 4 * 4

/-- The words of both. -/
def sbState : List ℕ :=
  List.ofFn a.buf.slotCntStale ++
    [a.stateSync.cmdCntStale, a.stateSync.eslot, a.stateSync.sslot, a.stateSync.used]

/-- All or nothing. -/
def syncReadState (size : ℕ) : Bytes :=
  if sbStateSize ≤ size then encodeWords 4 a.sbState else []

def syncReadData (offset size : ℕ) : Bytes :=
  let used := a.buf.fifo.bytesUsed true
  let size :=
    if used < (size + offset) % Fifo2.sizeT then (used + Fifo2.sizeT - offset) % Fifo2.sizeT
    else size
  if size = 0 then [] else (a.buf.fifo.read offset size true).2

/-- The number of bytes of data to come. -/
def syncWriteState (buf : Bytes) : ℕ × Syncer :=
  let a := a.flush
  if buf.length = sbStateSize then
    let word := wordAt 4 buf
    let stateSync := ⟨word 9, word 10, word 11, word 12⟩
    (stateSync.used, { a with
      buf := { a.buf with slotCntStale := fun slot => word slot }
      stateSync := stateSync })
  else (0, a)

def syncWriteData (buf : Bytes) : ℕ × Syncer :=
  let (size, fifo) := a.buf.fifo.enq buf
  (size, { a with buf := { a.buf with fifo := fifo } })

/-- A word that is the index of a slot. -/
def slotOfWord (word : ℕ) : Slot := ⟨word % (maxStreamCmds + 1), Nat.mod_lt _ (Nat.succ_pos _)⟩

theorem slotOfWord_val (slot : Slot) : slotOfWord slot = slot :=
  Fin.ext (Nat.mod_eq_of_lt slot.isLt)

/-- `streambuf_restore_state`. -/
def restoreState : Syncer :=
  { a with
    buf := { a.buf with
      slotCnt := a.buf.slotCntStale
      cmdCnt := a.stateSync.cmdCntStale
      cmdCntStale := a.stateSync.cmdCntStale
      eslot := slotOfWord a.stateSync.eslot
      -- the slot to take from is the one that the stale counters were at
      dslot := slotOfWord a.stateSync.sslot
      sslot := slotOfWord a.stateSync.sslot } }

/-! ### The audio state -/

/-- `sizeof(current_track_jiffies) + sizeof(sync_discarded_samples)`. -/
def audioStateSize : ℕ := 8 + 8

def audioSyncStateRead (size : ℕ) : Bytes :=
  if audioStateSize ≤ size then encodeWords 8 [a.currentTrackJiffies, a.syncDiscardedSamples]
  else []

def audioSyncStateWrite (buf : Bytes) : ℕ × Syncer :=
  if buf.length = audioStateSize then
    (audioStateSize, { a with
      currentTrackJiffies := wordAt 8 buf 0
      syncDiscardedSamples := wordAt 8 buf 1 })
  else (0, a)

/-- `audio_prepare_sync_to`, with the samples that have been discarded. -/
def prepareSyncTo (start : Bool) (samples : ℕ) : Option Syncer :=
  (a.lockState start).map fun a =>
    if start then { a with syncDiscardedSamples := samples, syncState := .readySyncTo }
    else { a with syncDiscardedSamples := 0, syncState := .idle }

def prepareSyncWait (start : Bool) : Option Syncer :=
  (a.lockState start).map fun a =>
    { a with syncState := if start then .readySyncWait else .idle }

/-- The result, and the packet that is put into a buffer of `len` bytes. -/
def syncStateSend (len : ℕ) : SyncResult × Bytes × Syncer :=
  if len = 0 then (.error, [], a)
  else
    match a.syncState with
    | .readySyncTo =>
      let packet := a.audioSyncStateRead len
      (if packet = [] then .error else .again, packet,
        { a with syncState := .sendSbState, sendOffset := 0 })
    | .sendAudioState =>
      let packet := a.audioSyncStateRead len
      (if packet = [] then .error else .again, packet, { a with syncState := .sendSbState })
    | .sendSbState =>
      let packet := a.syncReadState len
      (if packet = [] then .error else .again, packet, { a with syncState := .sendSbData })
    | .sendSbData =>
      let packet := a.syncReadData a.sendOffset len
      let a := { a with sendOffset := (a.sendOffset + packet.length) % Fifo2.sizeT }
      if packet.length = len then (.again, packet, a)
      else (.done, packet, { a with syncState := .sendDone })
    | _ => (.error, [], a)

def syncStateRecv (buf : Bytes) : SyncResult × Syncer :=
  if buf = [] then (.error, a)
  else
    match a.syncState with
    | .readySyncWait =>
      let (size, a) := { a with recvOffset := 0, syncDataLen := 0 }.audioSyncStateWrite buf
      (if size = 0 then .error else .again, { a with syncState := .recvSbState })
    | .recvAudioState =>
      let (size, a) := a.audioSyncStateWrite buf
      (if size = 0 then .error else .again, { a with syncState := .recvSbState })
    | .recvSbState =>
      let (syncDataLen, a) := a.syncWriteState buf
      (if syncDataLen = 0 then .error else .again,
        { a with
          syncDataLen := syncDataLen
          restoreStateOnResume := true
          syncState := .recvSbData })
    | .recvSbData =>
      let (size, a) := a.syncWriteData buf
      if size = 0 then (.error, a)
      else
        let a := { a with recvOffset := (a.recvOffset + buf.length) % Fifo2.sizeT }
        if a.syncDataLen = a.recvOffset then (.done, { a with syncState := .recvDone })
        else (.again, a)
    | _ => (.error, a)

end Syncer

/-! ### Two players -/

/-- A sender, a receiver, and whether the sender has sent everything. -/
structure Transfer where
  sender : Syncer
  receiver : Syncer
  done : Bool

/-- A packet is filled up to some length, sent and received; or the decode thread of
the sender, which is not stopped, calls its stream buffer. -/
inductive TransferEvent
  | packet (len : ℕ)
  | dataDeq (min max : ℕ)
  | cmdDeq (size : ℕ)
  | discard (size : ℕ) (data : Bool)
  deriving DecidableEq

/-- The transfer is given up when the sender fails. -/
def Transfer.step (t : Transfer) : TransferEvent → Option Transfer
  | .packet len =>
    if t.done then none
    else
      let (result, packet, sender) := t.sender.syncStateSend len
      if result = .error then none
      else some ⟨sender, (t.receiver.syncStateRecv packet).2, result = .done⟩
  | .dataDeq min max =>
    some { t with sender := { t.sender with buf := t.sender.buf.dataDeq min max } }
  | .cmdDeq size => some { t with sender := { t.sender with buf := t.sender.buf.cmdDeq size } }
  | .discard size data =>
    (t.sender.discard size data).map fun sender => { t with sender := sender }

/-- A transfer between players that have been prepared for it. -/
def transfer (sender receiver : Syncer) : System Transfer TransferEvent where
  init := ⟨sender, receiver, false⟩
  step := Transfer.step

end BeepMusic.Audio
