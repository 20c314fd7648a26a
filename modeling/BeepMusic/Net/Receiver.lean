import Mathlib.Algebra.Group.Int.Defs
import BeepMusic.Net.Packet
import BeepMusic.Lib.System

/-!
A connection of the stream channel. `_beep_socket_thread` reads into the buffer of the
connection and calls `stream_ch_on_recv` until it has nothing more to take; that looks
at the front of the buffer, and at a packet as a whole only when all of it is there.
-/

namespace BeepMusic.Net

open Lib

/-- `BEEP_CONN_BUF_SIZE`. -/
def connBufSize : ℕ := 32768

/-- What a callback is given. -/
inductive Callback
  | onStart (id : UInt32)
  | onStEnd (id : UInt32)
  | onSyncPt (id seq : UInt32)
  | onBuffer (size : UInt32) (payload : Bytes)
  | onStBegin (type transitionType transitionPeriod replayGain outputThreshold polarityInversion
      outputChannels : UInt32)
  | onFlush (setCookie : UInt32)
  | onSyncData (size : UInt32) (payload : Bytes)
  | onSyncTo (syncMtu size : UInt32) (payload : Bytes)
  | onSyncWait
  deriving DecidableEq

/-- A call of `stream_ch_on_recv`: the bytes that were buffered, what it returned, the size
field that it read, and where the payload that it gave to a callback began and its size. -/
structure RecvCall where
  buffered : ℕ
  nhandled : ℤ
  sizeField : Option UInt32 := none
  payload : Option (ℕ × ℤ) := none
  deriving DecidableEq

/-- Which callbacks are registered, and what they return after some others. -/
structure Events where
  registered : Cmd → Bool
  returns : List Callback → Callback → Bool

inductive ConnCode
  | valid
  | responseFull
  deriving DecidableEq

/-- A connection. The buffer is as long as the cursor; the last fields are for statements. -/
structure Conn where
  code : ConnCode
  buffer : Bytes
  responseBuffer : Bytes
  errors : ℕ
  closed : Bool
  /-- The cursor has left the buffer. -/
  corrupt : Bool
  called : List Callback
  /-- The bytes that have been taken from the buffer. -/
  handled : Bytes
  calls : List RecvCall
  deriving DecidableEq

variable (events : Events) (c : Conn)

namespace Conn

def init : Conn where
  code := .valid
  buffer := []
  responseBuffer := []
  errors := 0
  closed := false
  corrupt := false
  called := []
  handled := []
  calls := []

/-- A number as a C `int`. -/
def toInt (n : ℤ) : ℤ := (n + 2 ^ 31) % 2 ^ 32 - 2 ^ 31

/-- `beep_respond`. -/
def beepRespond (buf : Bytes) : Conn :=
  if c.code ≠ .valid then c
  else if connBufSize < c.responseBuffer.length + buf.length then { c with code := .responseFull }
  else { c with responseBuffer := c.responseBuffer ++ buf }

/-- The callback for a packet, with the fields that it reads from the words. -/
def callback (cmd : Cmd) (word : ℕ → UInt32) (payload : Bytes) : Option Callback :=
  match cmd with
  | .start => some (.onStart (word 1))
  | .stEnd => some (.onStEnd (word 1))
  | .syncPt => some (.onSyncPt (word 1) (word 2))
  | .buffer => some (.onBuffer (word 1) payload)
  | .stBegin =>
    some (.onStBegin (word 1) (word 2) (word 3) (word 4) (word 5) (word 6) (word 7))
  | .flush => some (.onFlush (word 1))
  | .syncData => some (.onSyncData (word 1) payload)
  | .syncTo => some (.onSyncTo (word 1) (word 2) payload)
  | .syncWait => some .onSyncWait
  | .nack | .ack => none

/-- `stream_ch_on_packet`: what it returns. -/
def onPacket (cmd : Cmd) (word : ℕ → UInt32) (payload : Bytes) : Bool × Conn :=
  match callback cmd word payload with
  | none => (false, { c with errors := c.errors + 1 })
  | some cb =>
    if events.registered cmd then
      (events.returns c.called cb, { c with called := c.called ++ [cb] })
    else (false, c)

/-- The answer to a packet. -/
def responseBytes (ack : Bool) : Bytes :=
  toBytes 4 (chTypeStream + if ack then Cmd.ack.code else Cmd.nack.code)

/-- `beep_net_read`: whether there are `len` bytes. -/
def netRead (len : ℤ) : Bool := len ≤ c.buffer.length

/-- A packet that is there as a whole. -/
def takePacket (cmd : Cmd) (word : ℕ → UInt32) (payload : Bytes) : Conn :=
  let (response, c) := c.onPacket events cmd word payload
  if cmd.response then c.beepRespond (responseBytes response) else c

/-- `stream_ch_on_recv`. -/
def onRecv : RecvCall × Conn :=
  let cursor := c.buffer.length
  if cursor < 4 then (⟨cursor, 0, none, none⟩, c)
  else
    let cmd := wordAt 4 c.buffer 0
    -- the type of the channel, and a known command
    match if cmd / 2 ^ 28 = 2 then Cmd.ofCode (cmd % 2 ^ 28) else none with
    | none => (⟨cursor, 4, none, none⟩, { c with errors := c.errors + 1 })
    | some cmd =>
      let reqSize := cmd.packetSize
      if cursor < reqSize then (⟨cursor, 0, none, none⟩, c)
      else
        let word := fun i => UInt32.ofNat (wordAt 4 c.buffer i)
        match cmd.varSize with
        | none => (⟨cursor, reqSize, none, none⟩, c.takePacket events cmd word [])
        | some i =>
          let varSize := toInt (word i).toNat
          let readSize := toInt (reqSize + varSize)
          if c.netRead readSize then
            (⟨cursor, readSize, some (word i), some (reqSize, varSize)⟩,
              c.takePacket events cmd word ((c.buffer.drop reqSize).take varSize.toNat))
          else (⟨cursor, 0, some (word i), none⟩, c)

/-- The bytes that a call has taken leave the buffer. -/
def consume (call : RecvCall) : Conn :=
  { c with
    buffer := c.buffer.drop call.nhandled.toNat
    handled := c.handled ++ c.buffer.take call.nhandled.toNat
    calls := c.calls ++ [call] }

/-- The loop of `_beep_socket_thread` around `stream_ch_on_recv`. A call that does not end
it takes at least one byte. -/
def handle (events : Events) : (fuel : ℕ) → Conn → Conn
  | 0, c => c
  | fuel + 1, c =>
    let (call, c) := c.onRecv events
    if call.nhandled < 0 ∨ c.buffer.length < call.nhandled then
      { c with corrupt := true, calls := c.calls ++ [call] }
    else if c.code = .valid ∧ call.nhandled ≠ 0 then handle events fuel (c.consume call)
    else c.consume call

/-- The socket can be read, and `read` returns these bytes. -/
def pollIn (chunk : Bytes) : Conn :=
  let c := handle events (c.buffer.length + chunk.length + 1)
    { c with buffer := c.buffer ++ chunk }
  if c.buffer.length = connBufSize ∨ c.code ≠ .valid then { c with closed := true } else c

/-- The socket can be written, and `write` takes some of the bytes. -/
def pollOut (amount : ℕ) : Conn :=
  { c with responseBuffer := c.responseBuffer.drop amount }

/-- Whether a chunk can be read: `read` returns at least one byte and at most as many as the
buffer has room for. -/
def canRead (chunk : Bytes) : Bool :=
  !c.closed && !c.corrupt && chunk ≠ [] && c.buffer.length + chunk.length ≤ connBufSize

end Conn

/-- What happens at a connection. -/
inductive ConnEvent
  | pollIn (chunk : Bytes)
  | pollOut (amount : ℕ)
  deriving DecidableEq

def Conn.step : ConnEvent → Option Conn
  | .pollIn chunk => if c.canRead chunk then some (c.pollIn events chunk) else none
  | .pollOut amount =>
    if !c.closed && !c.corrupt && amount ≤ c.responseBuffer.length then some (c.pollOut amount)
    else none

/-- A connection that gets any bytes. -/
def connection : System Conn ConnEvent where
  init := .init
  step := Conn.step events

end BeepMusic.Net
