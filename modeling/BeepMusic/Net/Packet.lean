import BeepMusic.Lib.Word

/-!
The packets of the stream channel, as `stream_ch_send_packet` writes them: a fixed part
of words in network order, the first of which is the command with the type of the
channel, and for some commands a payload whose size is one of the words.
-/

namespace BeepMusic.Net

open Lib

/-- `BEEP_STREAM_CH_CMD_*`. -/
inductive Cmd
  | nack
  | ack
  | start
  | stEnd
  | syncPt
  | buffer
  | stBegin
  | syncData
  | syncTo
  | syncWait
  | flush
  deriving DecidableEq

namespace Cmd

def code : Cmd → ℕ
  | nack => 0
  | ack => 1
  | start => 2
  | stEnd => 3
  | syncPt => 4
  | buffer => 5
  | stBegin => 6
  | syncData => 7
  | syncTo => 8
  | syncWait => 9
  | flush => 10

def ofCode : ℕ → Option Cmd
  | 0 => some nack
  | 1 => some ack
  | 2 => some start
  | 3 => some stEnd
  | 4 => some syncPt
  | 5 => some buffer
  | 6 => some stBegin
  | 7 => some syncData
  | 8 => some syncTo
  | 9 => some syncWait
  | 10 => some flush
  | _ => none

/-- `stream_ch_packet_size`, header included. A `BeepStreamChSyncTo` has a byte of data
and is padded to three words. -/
def packetSize : Cmd → ℕ
  | nack | ack | syncWait => 4
  | flush | start | stEnd | buffer | syncData => 8
  | syncPt => 12
  | syncTo => 16
  | stBegin => 32

/-- `BEEP_COMM_PACKET_FLAGS_RESPONSE`. -/
def response : Cmd → Bool
  | syncPt | syncData | syncTo | syncWait => true
  | _ => false

/-- `BEEP_COMM_PACKET_FLAGS_VAR_SIZE`, with the word that `stream_ch_packet_var_size` takes. -/
def varSize : Cmd → Option ℕ
  | buffer | syncData => some 1
  | syncTo => some 2
  | _ => none

theorem ofCode_code (cmd : Cmd) : ofCode cmd.code = some cmd := by
  cases cmd <;> rfl

theorem code_lt (cmd : Cmd) : cmd.code < 2 ^ 28 := by
  cases cmd <;> decide

end Cmd

/-- `BEEP_COMM_CMD_CH_TYPE_STREAM`. -/
def chTypeStream : ℕ := 2 ^ 29

/-- What is sent. The size of a payload is its length. -/
inductive Packet
  | start (id : UInt32)
  | stEnd (id : UInt32)
  | syncPt (id seq : UInt32)
  | buffer (payload : Bytes)
  | stBegin (type transitionType transitionPeriod replayGain outputThreshold polarityInversion
      outputChannels : UInt32)
  | flush (setCookie : UInt32)
  | syncData (payload : Bytes)
  | syncTo (syncMtu : UInt32) (payload : Bytes)
  | syncWait
  deriving DecidableEq

namespace Packet

def cmd : Packet → Cmd
  | start _ => .start
  | stEnd _ => .stEnd
  | syncPt _ _ => .syncPt
  | buffer _ => .buffer
  | stBegin .. => .stBegin
  | flush _ => .flush
  | syncData _ => .syncData
  | syncTo _ _ => .syncTo
  | syncWait => .syncWait

def payload : Packet → Bytes
  | buffer payload | syncData payload | syncTo _ payload => payload
  | _ => []

/-- The words behind the command. -/
def data : Packet → List UInt32
  | start id | stEnd id => [id]
  | syncPt id seq => [id, seq]
  | buffer payload | syncData payload => [.ofNat payload.length]
  | stBegin type transitionType transitionPeriod replayGain outputThreshold polarityInversion
      outputChannels =>
      [type, transitionType, transitionPeriod, replayGain, outputThreshold, polarityInversion,
        outputChannels]
  | flush setCookie => [setCookie]
  | syncTo syncMtu payload => [syncMtu, .ofNat payload.length, 0]
  | syncWait => []

variable (p : Packet)

def words : List ℕ := (chTypeStream + p.cmd.code) :: p.data.map UInt32.toNat

/-- The bytes that `stream_ch_send_packet` writes. -/
def encode : Bytes := encodeWords 4 p.words ++ p.payload

theorem length_words : 4 * p.words.length = p.cmd.packetSize := by
  cases p <;> rfl

theorem length_encode : p.encode.length = p.cmd.packetSize + p.payload.length := by
  rw [encode, List.length_append, length_encodeWords, length_words]

theorem words_lt : ∀ word ∈ p.words, word < 256 ^ 4 := by
  intro word hword
  rcases List.mem_cons.mp hword with rfl | hdata
  · have hcode := p.cmd.code_lt
    simp only [chTypeStream]
    omega
  · obtain ⟨value, -, rfl⟩ := List.mem_map.mp hdata
    exact value.toNat_lt

end Packet

end BeepMusic.Net
