import BeepMusic.Audio.DecodeTurn
import BeepMusic.Audio.RingFifo

/-!
`mqueue.c`, and the messages that `audio.c` sends to the decode thread with it. A message
is a word that names the operation, and its arguments. Before it is written there is a check
for room, against a length that each caller gives; how much is written is another matter.

Every caller holds the lock from its request to the end of its message, and so does the
decode thread from the word to the last argument.
-/

namespace BeepMusic.Audio

open Lib List

structure Mqueue where
  fifo : RingFifo
  buffer : ℕ → UInt8

variable (q : Mqueue)

namespace Mqueue

def init (size : ℕ) : Mqueue := ⟨.init size, fun _ => 0⟩

/-- The loop of `mqueue_read_buf`. Each turn reads something, so there are at most as many
turns as bytes. -/
def readLoop : (fuel : ℕ) → Mqueue → (n : ℕ) → Bytes × Mqueue
  | 0, q, _ => ([], q)
  | fuel + 1, q, n =>
    if n = 0 then ([], q)
    else
      let wrap := q.fifo.bytesUntilRptrWrap
      let bytesRead := if n < wrap then n else wrap
      let (rest, q') :=
        readLoop fuel { q with fifo := q.fifo.rptrIncby bytesRead } (n - bytesRead)
      (memcpyOut q.buffer q.fifo.rptr bytesRead ++ rest, q')

def readBuf (n : ℕ) : Bytes × Mqueue := readLoop n q n

/-- The loop of `mqueue_write_buf`. -/
def writeLoop : (fuel : ℕ) → Mqueue → Bytes → Mqueue
  | 0, q, _ => q
  | fuel + 1, q, b =>
    if b = [] then q
    else
      let wrap := q.fifo.bytesUntilWptrWrap
      let bytesWrite := if b.length < wrap then b.length else wrap
      writeLoop fuel
        ⟨q.fifo.wptrIncby bytesWrite, memcpyIn q.buffer q.fifo.wptr (b.take bytesWrite)⟩
        (b.drop bytesWrite)

def writeBuf (b : Bytes) : Mqueue := writeLoop b.length q b

/-- `mqueue_write_request`; `none` is a queue without room for `len` bytes. -/
def writeRequest (code len : ℕ) : Option Mqueue :=
  if q.fifo.bytesFree < len then none else some (q.writeBuf (toBytes 4 code))

/-- What has been written and not read, as the pointers have it. -/
def content : Bytes :=
  Ring.segment q.buffer q.fifo.size q.fifo.rptr q.fifo.bytesUsed

variable {q : Mqueue}

theorem length_content (q : Mqueue) : q.content.length = q.fifo.bytesUsed :=
  Ring.length_segment _ _ _ _

/-! ### Writing -/

variable {b : Bytes} {fuel : ℕ}

theorem content_writeChunk (h : q.fifo.Ok) (hend : q.fifo.wptr + b.length ≤ q.fifo.size)
    (hfree : b.length ≤ q.fifo.bytesFree) :
    content ⟨q.fifo.wptrIncby b.length, memcpyIn q.buffer q.fifo.wptr b⟩ = q.content ++ b := by
  have hsum := h.bytesFree_add
  have hfit : Ring.dist q.fifo.size q.fifo.rptr q.fifo.wptr + b.length < q.fifo.size := by
    rw [← RingFifo.bytesUsed_eq]
    omega
  rw [RingFifo.wptrIncby_eq hend]
  exact (Fifo2.written_memcpyIn hend).segment_dist h.rptr h.wptr hfit

theorem ok_writeLoop (h : q.fifo.Ok) :
    (writeLoop fuel q b).fifo.Ok ∧ (writeLoop fuel q b).fifo.size = q.fifo.size := by
  induction fuel generalizing q b with
  | zero => exact ⟨h, rfl⟩
  | succ fuel ih =>
    rw [writeLoop]
    split_ifs with hnil
    · exact ⟨h, rfl⟩
    · dsimp only
      have hw := h.wptr
      generalize hn : (if b.length < q.fifo.bytesUntilWptrWrap then b.length
        else q.fifo.bytesUntilWptrWrap) = n
      have hend : q.fifo.wptr + n ≤ q.fifo.size := by
        rw [← hn, RingFifo.bytesUntilWptrWrap]
        split_ifs <;> omega
      have hok := h.wptrIncby hend
      refine ⟨(ih hok).1, (ih hok).2.trans ?_⟩
      rw [RingFifo.wptrIncby_eq hend]

theorem content_writeLoop (h : q.fifo.Ok) (hfuel : b.length ≤ fuel)
    (hfree : b.length ≤ q.fifo.bytesFree) : (writeLoop fuel q b).content = q.content ++ b := by
  induction fuel generalizing q b with
  | zero =>
    obtain rfl : b = [] := eq_nil_of_length_eq_zero (Nat.le_zero.mp hfuel)
    exact (append_nil _).symm
  | succ fuel ih =>
    rw [writeLoop]
    split_ifs with hnil
    · rw [hnil, append_nil]
    · dsimp only
      have hw := h.wptr
      have hpos : 0 < b.length := length_pos_of_ne_nil hnil
      generalize hn : (if b.length < q.fifo.bytesUntilWptrWrap then b.length
        else q.fifo.bytesUntilWptrWrap) = n
      have hbounds : 0 < n ∧ n ≤ b.length ∧ q.fifo.wptr + n ≤ q.fifo.size := by
        rw [← hn, RingFifo.bytesUntilWptrWrap]
        split_ifs <;> omega
      obtain ⟨hnpos, hle, hend⟩ := hbounds
      have hlength : (b.take n).length = n := length_take_of_le hle
      have hchunk := content_writeChunk (q := q) (b := b.take n) h (by rwa [hlength])
        (by rw [hlength]; omega)
      rw [hlength] at hchunk
      have hok := h.wptrIncby hend
      have hused := h.bytesUsed_wptrIncby hend (by omega)
      have hsum := h.bytesFree_add
      have hsum' := hok.bytesFree_add
      have hsize : (q.fifo.wptrIncby n).size = q.fifo.size := by
        rw [RingFifo.wptrIncby_eq hend]
      have hrest : (b.drop n).length ≤ (q.fifo.wptrIncby n).bytesFree := by
        rw [length_drop]
        omega
      rw [ih hok (by rw [length_drop]; omega) hrest, hchunk, append_assoc,
        take_append_drop]

/-! ### Reading -/

theorem content_readChunk {n : ℕ} (h : q.fifo.Ok) (hend : q.fifo.rptr + n ≤ q.fifo.size)
    (hn : n ≤ q.fifo.bytesUsed) :
    memcpyOut q.buffer q.fifo.rptr n = q.content.take n ∧
      content { q with fifo := q.fifo.rptrIncby n } = q.content.drop n := by
  have hlt := h.bytesUsed_lt
  rw [RingFifo.rptrIncby_eq hend, Fifo2.memcpyOut_eq hend]
  refine ⟨?_, (Ring.drop_segment_dist h.rptr h.wptr hn).symm⟩
  have hsplit : q.fifo.bytesUsed = n + (q.fifo.bytesUsed - n) := by omega
  rw [content, hsplit, Ring.segment_add h.rptr (by omega),
    take_left' (Ring.length_segment _ _ _ _)]

/-- What a read of `n` bytes gives, and what it leaves. -/
structure Reads (q : Mqueue) (n : ℕ) (result : Bytes × Mqueue) : Prop where
  bytes : result.1 = q.content.take n
  content : result.2.content = q.content.drop n
  ok : result.2.fifo.Ok
  size : result.2.fifo.size = q.fifo.size

theorem reads_readLoop {n : ℕ} (h : q.fifo.Ok) (hfuel : n ≤ fuel) (hn : n ≤ q.fifo.bytesUsed) :
    Reads q n (readLoop fuel q n) := by
  induction fuel generalizing q n with
  | zero =>
    obtain rfl : n = 0 := Nat.le_zero.mp hfuel
    exact ⟨rfl, rfl, h, rfl⟩
  | succ fuel ih =>
    rw [readLoop]
    split_ifs with hzero
    · rw [hzero]
      exact ⟨rfl, rfl, h, rfl⟩
    · dsimp only
      have hr := h.rptr
      generalize hk : (if n < q.fifo.bytesUntilRptrWrap then n
        else q.fifo.bytesUntilRptrWrap) = k
      have hbounds : 0 < k ∧ k ≤ n ∧ q.fifo.rptr + k ≤ q.fifo.size := by
        rw [← hk, RingFifo.bytesUntilRptrWrap]
        split_ifs <;> omega
      obtain ⟨hpos, hle, hend⟩ := hbounds
      obtain ⟨hbytes, hcontent⟩ := content_readChunk h hend (by omega)
      have hused := h.bytesUsed_rptrIncby hend (by omega)
      have hsize : (q.fifo.rptrIncby k).size = q.fifo.size := by
        rw [RingFifo.rptrIncby_eq hend]
      have hrest := ih (q := { q with fifo := q.fifo.rptrIncby k }) (n := n - k)
        (h.rptrIncby hend) (by omega) (show n - k ≤ (q.fifo.rptrIncby k).bytesUsed by omega)
      refine ⟨?_, ?_, hrest.ok, hrest.size.trans hsize⟩
      · rw [hrest.bytes, hcontent, hbytes, ← take_add, Nat.add_sub_cancel' hle]
      · rw [hrest.content, hcontent, drop_drop, Nat.add_sub_cancel' hle]

theorem readBuf_append {rest : Bytes} (h : q.fifo.Ok) (hcontent : q.content = b ++ rest) :
    (q.readBuf b.length).1 = b ∧ (q.readBuf b.length).2.content = rest ∧
      (q.readBuf b.length).2.fifo.Ok ∧ (q.readBuf b.length).2.fifo.size = q.fifo.size := by
  have hn : b.length ≤ q.fifo.bytesUsed := by
    rw [← length_content, hcontent, length_append]
    exact Nat.le_add_right _ _
  have hreads := reads_readLoop h (Nat.le_refl _) hn
  have hbytes := hreads.bytes
  have hleft := hreads.content
  rw [hcontent, take_left] at hbytes
  rw [hcontent, drop_left] at hleft
  exact ⟨hbytes, hleft, hreads.ok, hreads.size⟩

/-- `mqueue_read_u32` and so on, one after the other, with the sizes of what is read. -/
def readParts : List ℕ → Mqueue → Bytes × Mqueue
  | [], q => ([], q)
  | n :: ns, q =>
    let (b, q) := q.readBuf n
    let (bs, q) := readParts ns q
    (b ++ bs, q)

theorem readParts_append {ns : List ℕ} {rest : Bytes} (h : q.fifo.Ok)
    (hcontent : q.content = b ++ rest) (hlength : b.length = ns.sum) :
    (readParts ns q).1 = b ∧ (readParts ns q).2.content = rest ∧
      (readParts ns q).2.fifo.Ok ∧ (readParts ns q).2.fifo.size = q.fifo.size := by
  induction ns generalizing q b with
  | nil =>
    obtain rfl : b = [] := eq_nil_of_length_eq_zero hlength
    exact ⟨rfl, hcontent, h, rfl⟩
  | cons n ns ih =>
    rw [sum_cons] at hlength
    have hfirst : (b.take n).length = n := length_take_of_le (by omega)
    obtain ⟨hb, hleft, hok, hsize⟩ := readBuf_append h
      (show q.content = b.take n ++ (b.drop n ++ rest) by
        rw [← append_assoc, take_append_drop, hcontent])
    rw [hfirst] at hb hleft hok hsize
    obtain ⟨hbs, hleft', hok', hsize'⟩ := ih hok hleft (by rw [length_drop]; omega)
    refine ⟨?_, hleft', hok', hsize'.trans hsize⟩
    show (q.readBuf n).1 ++ (readParts ns (q.readBuf n).2).1 = b
    rw [hb, hbs, take_append_drop]

end Mqueue

/-! ### Messages -/

inductive AudioOp
  | resumeDecoder
  | stop
  | flush
  | pauseAudio
  | resumeAudio
  | start
  | stEnd
  | skipAhead
  deriving DecidableEq

/-- The operation that `decode_audio_op` finds a handler for. -/
def decodeAudioOp (code : ℕ) : Option AudioOp :=
  let code := if code / 2 ^ 31 % 2 = 0 then bswap32 code else code
  match code % 2 ^ 8 with
  | 1 => some .resumeDecoder
  | 2 => some .stop
  | 3 => some .flush
  | 4 => some .pauseAudio
  | 5 => some .resumeAudio
  | 6 => some .start
  | 7 => some .stEnd
  | 8 => some .skipAhead
  | _ => none

/-- `DECODER_MAX_PARAMS`. -/
def decoderMaxParams : ℕ := 32

/-- What the handler of an operation reads. -/
def AudioOp.readArgs : AudioOp → Bytes × Mqueue
  | .resumeDecoder | .stEnd => ([], q)
  | .stop | .flush | .pauseAudio | .skipAhead => q.readParts [4]
  | .resumeAudio => q.readParts [8]
  | .start =>
    let (words, q) := q.readParts (List.replicate 8 4)
    let numParams := min (wordAt 4 words 7) decoderMaxParams
    let (params, q) := q.readParts (List.replicate numParams 1)
    (words ++ params, q)

structure MqueueMessage where
  code : ℕ
  args : Bytes
  deriving DecidableEq

def MqueueMessage.bytes (m : MqueueMessage) : Bytes := toBytes 4 m.code ++ m.args

/-- A caller's message, the length that it asks room for, and whether the process ends
when there is none; otherwise the message is dropped. -/
structure MqueueRequest where
  len : ℕ
  message : MqueueMessage
  ends : Bool

def audioDecoderStop (playCookie : ℕ) : MqueueRequest :=
  ⟨0, ⟨encodeAudioOp 2 0, toBytes 4 playCookie⟩, false⟩

def audioDecoderFlush (playCookie : ℕ) : MqueueRequest :=
  ⟨0, ⟨encodeAudioOp 3 0, toBytes 4 playCookie⟩, true⟩

def audioPause (intervalMs : ℕ) : MqueueRequest :=
  ⟨4, ⟨encodeAudioOp 4 0, toBytes 4 intervalMs⟩, false⟩

def audioResume (startJiffies : ℕ) : MqueueRequest :=
  ⟨4, ⟨encodeAudioOp 5 0, toBytes 8 startJiffies⟩, false⟩

def audioSkipAhead (intervalUs : ℕ) : MqueueRequest :=
  ⟨4, ⟨encodeAudioOp 8 0, toBytes 4 intervalUs⟩, false⟩

/-- The arguments of `audio_decoder_start`. -/
structure StartParams where
  decoder : ℕ
  transitionType : ℕ
  transitionPeriod : ℕ
  replayGain : ℕ
  outputThreshold : ℕ
  polarityInversion : ℕ
  outputChannels : ℕ

/-- The commands that travel in the stream buffer. -/
inductive InlineCommand
  | resumeDecoder
  | start (params : StartParams)
  | stEnd

def InlineCommand.message : InlineCommand → MqueueMessage
  | .resumeDecoder => ⟨encodeAudioOp 1 4, []⟩
  | .start p => ⟨encodeAudioOp 6 36, encodeWords 4 [p.decoder, p.transitionType,
      p.transitionPeriod, p.replayGain, p.outputThreshold, p.polarityInversion,
      p.outputChannels, 0]⟩
  | .stEnd => ⟨encodeAudioOp 7 4, []⟩

/-- A turn of `audio_decode_thread_execute` that comes to a command in the stream. -/
def forwardInline (cmd : InlineCommand) : MqueueRequest :=
  ⟨audioOpSize cmd.message.code, cmd.message, true⟩

/-! ### The queue with its callers -/

/-- The queue; for statements, the messages for which `mqueue_write_request` returned 1
and those that the decode thread has read. -/
structure MqueueState where
  queue : Mqueue
  accepted : List MqueueMessage
  handled : List MqueueMessage

inductive MqueueEvent
  | decoderStop (playCookie : ℕ)
  | decoderFlush (playCookie : ℕ)
  | pause (intervalMs : ℕ)
  | resume (startJiffies : ℕ)
  | skipAhead (intervalUs : ℕ)
  | forward (cmd : InlineCommand)
  /-- The decode thread looks for a message. -/
  | read

def MqueueEvent.request : MqueueEvent → Option MqueueRequest
  | .decoderStop playCookie => some (audioDecoderStop playCookie)
  | .decoderFlush playCookie => some (audioDecoderFlush playCookie)
  | .pause intervalMs => some (audioPause intervalMs)
  | .resume startJiffies => some (audioResume startJiffies)
  | .skipAhead intervalUs => some (audioSkipAhead intervalUs)
  | .forward cmd => some (forwardInline cmd)
  | .read => none

namespace MqueueState

def send (s : MqueueState) (r : MqueueRequest) : Option MqueueState :=
  match s.queue.writeRequest r.message.code r.len with
  | some q => some { s with
      queue := q.writeBuf r.message.args
      accepted := s.accepted ++ [r.message] }
  | none => if r.ends then none else some s

/-- `mqueue_read_request`, and the handler that it leads to. Without one, the thread
calls the null pointer. -/
def receive (s : MqueueState) : Option MqueueState :=
  if s.queue.fifo.bytesUsed = 0 then some s
  else
    let (word, q) := s.queue.readBuf 4
    match decodeAudioOp (bigEndian word) with
    | some op =>
      let (args, q) := op.readArgs q
      some { s with queue := q, handled := s.handled ++ [⟨bigEndian word, args⟩] }
    | none => none

def step (s : MqueueState) (e : MqueueEvent) : Option MqueueState :=
  match e.request with
  | some r => s.send r
  | none => s.receive

end MqueueState

/-- `DECODE_MQUEUE_SIZE`. -/
def decodeMqueueSize : ℕ := 512

/-- Every interleaving of the callers and the decode thread. -/
def decodeMqueue : System MqueueState MqueueEvent where
  init := ⟨.init decodeMqueueSize, [], []⟩
  step := MqueueState.step

end BeepMusic.Audio
