import BeepMusic.Audio.MessageQueue

/-!
What reaches the decode thread. As long as every message that is written has the room it
needs, the queue holds exactly the messages that were accepted and not read, and the
decode thread reads them in order. But most callers ask for less room than they use, so a
queue that is nearly full takes a message that does not fit, and then all is lost.
-/

namespace BeepMusic.Audio

open Lib List

namespace MqueueState

variable {s s' : MqueueState} {e : MqueueEvent} {r : MqueueRequest}

/-- The bytes that have been written and not read. -/
def unread (s : MqueueState) : Bytes :=
  (s.accepted.drop s.handled.length).flatMap MqueueMessage.bytes

/-- The messages that were read are the first ones that were accepted, and the queue holds
the other ones. -/
def Intact (s : MqueueState) : Prop :=
  s.handled <+: s.accepted ∧ s.queue.content = s.unread

/-- A message that is accepted has the room that it needs. -/
def Fits (s : MqueueState) (e : MqueueEvent) : Prop :=
  (e.request.all fun r => decide (r.len ≤ s.queue.fifo.bytesFree →
    r.message.bytes.length ≤ s.queue.fifo.bytesFree)) = true
deriving Decidable

end MqueueState

/-! ### Messages are read as they are written -/

/-- The handler of the message reads its arguments, whatever stands behind them. -/
def MqueueMessage.Readable (m : MqueueMessage) : Prop :=
  m.code < 256 ^ 4 ∧ ∃ op, decodeAudioOp m.code = some op ∧
    ∀ (q : Mqueue) (rest : Bytes), q.fifo.Ok → q.content = m.args ++ rest →
      (op.readArgs q).1 = m.args ∧ (op.readArgs q).2.content = rest ∧
        (op.readArgs q).2.fifo.Ok ∧ (op.readArgs q).2.fifo.size = q.fifo.size

theorem readable_part {code width n : ℕ} (op : AudioOp) (hcode : code < 256 ^ 4)
    (hop : decodeAudioOp code = some op) (hread : ∀ q, op.readArgs q = q.readParts [width]) :
    MqueueMessage.Readable ⟨code, toBytes width n⟩ := by
  refine ⟨hcode, op, hop, fun q rest hok hcontent => ?_⟩
  rw [hread]
  exact Mqueue.readParts_append hok hcontent (by simp)

theorem readable_bare {code : ℕ} (op : AudioOp) (hcode : code < 256 ^ 4)
    (hop : decodeAudioOp code = some op) (hread : ∀ q, op.readArgs q = ([], q)) :
    MqueueMessage.Readable ⟨code, []⟩ := by
  refine ⟨hcode, op, hop, fun q rest hok hcontent => ?_⟩
  rw [hread]
  exact ⟨rfl, hcontent, hok, rfl⟩

/-- The start operation has eight words, the last of which counts the parameters for the
decoder. -/
theorem readable_words {args : Bytes} (hlength : args.length = 32) (hlast : wordAt 4 args 7 = 0) :
    MqueueMessage.Readable ⟨encodeAudioOp 6 36, args⟩ := by
  have hcode : encodeAudioOp 6 36 < 256 ^ 4 := by decide
  have hop : decodeAudioOp (encodeAudioOp 6 36) = some .start := by decide
  refine ⟨hcode, .start, hop, fun q rest hok hcontent => ?_⟩
  obtain ⟨hwords, hleft, hok', hsize⟩ := Mqueue.readParts_append hok hcontent
    (show args.length = (replicate 8 4).sum from hlength)
  rcases hparts : q.readParts (replicate 8 4) with ⟨words, q'⟩
  rw [hparts] at hwords hleft hok' hsize
  obtain rfl : words = args := hwords
  have hargs : AudioOp.start.readArgs q = (words, q') := by
    simp only [AudioOp.readArgs, hparts, hlast, Nat.zero_min, replicate_zero,
      Mqueue.readParts, append_nil]
  rw [hargs]
  exact ⟨rfl, hleft, hok', hsize⟩

theorem wordAt_last (ns : List ℕ) (n : ℕ) (hn : n < 256 ^ 4) :
    wordAt 4 (encodeWords 4 (ns ++ [n])) ns.length = n := by
  rw [wordAt, encodeWords, flatMap_append, ← encodeWords, ← length_encodeWords,
    drop_left, flatMap_singleton, take_of_length_le (by rw [length_toBytes]),
    bigEndian_toBytes hn]

theorem readable_start (p : StartParams) : (InlineCommand.start p).message.Readable :=
  readable_words (length_encodeWords 4 _) (wordAt_last [p.decoder, p.transitionType,
    p.transitionPeriod, p.replayGain, p.outputThreshold, p.polarityInversion,
    p.outputChannels] 0 (by decide))

theorem readable_request {e : MqueueEvent} {r : MqueueRequest} (h : e.request = some r) :
    r.message.Readable := by
  cases e with
  | decoderStop cookie =>
    cases h
    exact readable_part .stop (by decide) (by decide) fun _ => rfl
  | decoderFlush cookie =>
    cases h
    exact readable_part .flush (by decide) (by decide) fun _ => rfl
  | pause ms =>
    cases h
    exact readable_part .pauseAudio (by decide) (by decide) fun _ => rfl
  | resume jiffies =>
    cases h
    exact readable_part .resumeAudio (by decide) (by decide) fun _ => rfl
  | skipAhead us =>
    cases h
    exact readable_part .skipAhead (by decide) (by decide) fun _ => rfl
  | forward cmd =>
    cases h
    cases cmd with
    | resumeDecoder => exact readable_bare .resumeDecoder (by decide) (by decide) fun _ => rfl
    | start p => exact readable_start p
    | stEnd => exact readable_bare .stEnd (by decide) (by decide) fun _ => rfl
  | read => cases h

/-! ### Runs -/

namespace MqueueState

variable {s s' : MqueueState} {e : MqueueEvent} {r : MqueueRequest}

/-- The messages that have been accepted and not read are in the queue, one behind the
other. -/
structure Holds (s : MqueueState) (rest : List MqueueMessage) : Prop where
  ok : s.queue.fifo.Ok
  size : s.queue.fifo.size = decodeMqueueSize
  accepted : s.accepted = s.handled ++ rest
  content : s.queue.content = rest.flatMap MqueueMessage.bytes
  readable : ∀ m ∈ rest, m.Readable

variable {rest : List MqueueMessage}

theorem Holds.unread_eq (h : s.Holds rest) : s.unread = rest.flatMap MqueueMessage.bytes := by
  rw [unread, h.accepted, drop_left]

theorem Holds.intact (h : s.Holds rest) : s.Intact :=
  ⟨h.accepted ▸ prefix_append _ _, h.content.trans h.unread_eq.symm⟩

/-- What `send` does: the word and the arguments are written, or nothing is. -/
theorem send_cases (h : s.send r = some s') :
    (s.queue.fifo.bytesFree < r.len ∧ s' = s) ∨ (r.len ≤ s.queue.fifo.bytesFree ∧ s' = { s with
      queue := (s.queue.writeBuf (toBytes 4 r.message.code)).writeBuf r.message.args
      accepted := s.accepted ++ [r.message] }) := by
  rw [send, Mqueue.writeRequest] at h
  by_cases hroom : s.queue.fifo.bytesFree < r.len
  · split_ifs at h
    exact .inl ⟨hroom, (Option.some.inj h).symm⟩
  · rw [if_neg hroom] at h
    exact .inr ⟨Nat.le_of_not_lt hroom, (Option.some.inj h).symm⟩

theorem content_writeBuf_writeBuf {q : Mqueue} {a b : Bytes} (h : q.fifo.Ok)
    (hfree : a.length + b.length ≤ q.fifo.bytesFree) :
    ((q.writeBuf a).writeBuf b).content = q.content ++ a ++ b := by
  have ha : (q.writeBuf a).content = q.content ++ a :=
    Mqueue.content_writeLoop h (Nat.le_refl _) (by omega)
  obtain ⟨hok, hsize⟩ : (q.writeBuf a).fifo.Ok ∧ (q.writeBuf a).fifo.size = q.fifo.size :=
    Mqueue.ok_writeLoop h
  have hused := congrArg List.length ha
  rw [length_append, Mqueue.length_content, Mqueue.length_content] at hused
  have hsum := h.bytesFree_add
  have hsum' := hok.bytesFree_add
  have hb := Mqueue.content_writeLoop hok (Nat.le_refl b.length) (by omega)
  exact hb.trans (congrArg (· ++ b) ha)

theorem ok_writeBuf_writeBuf {q : Mqueue} (a b : Bytes) (h : q.fifo.Ok) :
    ((q.writeBuf a).writeBuf b).fifo.Ok ∧
      ((q.writeBuf a).writeBuf b).fifo.size = q.fifo.size := by
  obtain ⟨hok, hsize⟩ : (q.writeBuf a).fifo.Ok ∧ (q.writeBuf a).fifo.size = q.fifo.size :=
    Mqueue.ok_writeLoop h
  exact (Mqueue.ok_writeLoop hok).imp_right fun hsize' => hsize'.trans hsize

theorem Holds.send (h : s.Holds rest) (hr : r.message.Readable)
    (hfits : r.len ≤ s.queue.fifo.bytesFree → r.message.bytes.length ≤ s.queue.fifo.bytesFree)
    (hstep : s.send r = some s') : ∃ rest', s'.Holds rest' := by
  rcases send_cases hstep with ⟨-, rfl⟩ | ⟨hlen, rfl⟩
  · exact ⟨rest, h⟩
  · have hroom := hfits hlen
    rw [MqueueMessage.bytes, length_append] at hroom
    obtain ⟨hok, hsize⟩ := ok_writeBuf_writeBuf (toBytes 4 r.message.code) r.message.args h.ok
    refine ⟨rest ++ [r.message], hok, hsize.trans h.size, ?_, ?_, ?_⟩
    · rw [h.accepted, append_assoc]
    · refine (content_writeBuf_writeBuf h.ok hroom).trans ?_
      rw [h.content, flatMap_append, flatMap_singleton, MqueueMessage.bytes,
        append_assoc]
    · intro m hm
      rcases mem_append.mp hm with hm | hm
      · exact h.readable m hm
      · rw [mem_singleton.mp hm]
        exact hr

theorem Holds.receive (h : s.Holds rest) :
    ∃ s', s.receive = some s' ∧ s'.Holds rest.tail ∧
      s'.handled = s.handled ++ rest.head?.toList := by
  have hused : s.queue.fifo.bytesUsed = (rest.flatMap MqueueMessage.bytes).length := by
    rw [← h.content, Mqueue.length_content]
  cases rest with
  | nil =>
    refine ⟨s, if_pos hused, h, ?_⟩
    exact (append_nil _).symm
  | cons m rest =>
    obtain ⟨hcode, op, hop, hargs⟩ := h.readable m (.head _)
    have hcontent : s.queue.content =
        toBytes 4 m.code ++ (m.args ++ rest.flatMap MqueueMessage.bytes) := by
      rw [h.content, flatMap_cons, MqueueMessage.bytes, append_assoc]
    obtain ⟨hword, hleft, hok, hsize⟩ := Mqueue.readBuf_append h.ok hcontent
    rw [length_toBytes] at hword hleft hok hsize
    obtain ⟨hread, hleft', hok', hsize'⟩ := hargs _ _ hok hleft
    have hpos : s.queue.fifo.bytesUsed ≠ 0 := by
      rw [hused, flatMap_cons, MqueueMessage.bytes, length_append, length_append,
        length_toBytes]
      omega
    have hreceive : s.receive = some { s with
        queue := (op.readArgs (s.queue.readBuf 4).2).2
        handled := s.handled ++ [m] } := by
      rw [MqueueState.receive, if_neg hpos]
      dsimp only
      rw [hword, bigEndian_toBytes hcode, hop]
      dsimp only
      rw [hread]
    refine ⟨_, hreceive, ⟨hok', hsize'.trans (hsize.trans h.size), ?_, hleft', ?_⟩, rfl⟩
    · rw [h.accepted, append_assoc]
      rfl
    · exact fun m' hm' => h.readable m' (.tail _ hm')

theorem Holds.init : decodeMqueue.init.Holds [] :=
  ⟨RingFifo.ok_init (by decide), rfl, rfl, rfl, nofun⟩

theorem Holds.step (h : s.Holds rest) (hfits : s.Fits e) (hstep : decodeMqueue.step s e = some s') :
    ∃ rest', s'.Holds rest' := by
  have hstep' : s.step e = some s' := hstep
  rw [MqueueState.step] at hstep'
  rw [Fits] at hfits
  cases hrequest : e.request with
  | none =>
    rw [hrequest] at hstep'
    obtain ⟨t, ht, hholds, -⟩ := h.receive
    obtain rfl := Option.some.inj (ht.symm.trans hstep')
    exact ⟨_, hholds⟩
  | some r =>
    rw [hrequest] at hstep' hfits
    exact h.send (readable_request hrequest) (of_decide_eq_true hfits) hstep'

/-- A message that is accepted without the room it needs is the end of it: the queue cannot
hold that many bytes. -/
theorem Holds.not_intact (h : s.Holds rest) (hfits : ¬s.Fits e)
    (hstep : decodeMqueue.step s e = some s') : ¬s'.Intact := by
  rw [Fits] at hfits
  cases hrequest : e.request with
  | none =>
    rw [hrequest] at hfits
    exact absurd rfl hfits
  | some r =>
    rw [hrequest, Option.all_some, decide_eq_true_eq, Classical.not_imp] at hfits
    have hsend : s.send r = some s' := by
      have hstep' : s.step e = some s' := hstep
      rwa [MqueueState.step, hrequest] at hstep'
    rcases send_cases hsend with ⟨hroom, -⟩ | ⟨-, rfl⟩
    · omega
    · intro hintact
      obtain ⟨hok, hsize⟩ :=
        ok_writeBuf_writeBuf (toBytes 4 r.message.code) r.message.args h.ok
      have hlt := hok.bytesUsed_lt
      have hsum := h.ok.bytesFree_add
      have hused := congrArg List.length h.content
      have hlength := congrArg List.length hintact.2
      simp only [unread, h.accepted, append_assoc, drop_left, flatMap_append,
        length_append, flatMap_singleton, Mqueue.length_content] at hused hlength
      omega

theorem exists_holds (h : decodeMqueue.ReachableUnder Fits s) : ∃ rest, s.Holds rest :=
  h.invariant (I := fun s => ∃ rest, s.Holds rest) ⟨[], .init⟩
    fun _ _ _ ⟨_, hs⟩ hfits hstep => hs.step hfits hstep

end MqueueState

/-- As long as every message that is accepted has the room it needs, the decode thread
reads the accepted messages in order, and the queue holds the other ones. The first one
that has not is the end of that. -/
theorem decodeMqueue_integrity {s : MqueueState}
    (h : decodeMqueue.ReachableUnder MqueueState.Fits s) :
    s.Intact ∧
      (∃ s', decodeMqueue.step s .read = some s' ∧
        s'.handled = s.handled ++ (s.accepted.drop s.handled.length).head?.toList) ∧
      ∀ e s', decodeMqueue.step s e = some s' → (s'.Intact ↔ s.Fits e) := by
  obtain ⟨rest, hs⟩ := MqueueState.exists_holds h
  refine ⟨hs.intact, ?_, fun e s' hstep => ⟨fun hintact => ?_, fun hfits => ?_⟩⟩
  · obtain ⟨s', hreceive, -, hhandled⟩ := hs.receive
    refine ⟨s', hreceive, ?_⟩
    rw [hhandled, hs.accepted, drop_left]
  · by_contra hfits
    exact hs.not_intact hfits hstep hintact
  · obtain ⟨rest', hs'⟩ := hs.step hfits hstep
    exact hs'.intact

/-- Two messages, the first of which has been read. -/
theorem decodeMqueue_integrity_resume : ∃ s, decodeMqueue.ReachableUnder MqueueState.Fits s ∧
    (s.accepted.length = 2 ∧ s.handled.length = 1) ∧ s.Intact ∧
      (∃ s', decodeMqueue.step s .read = some s' ∧
        s'.handled = s.handled ++ (s.accepted.drop s.handled.length).head?.toList) ∧
      ∀ e s', decodeMqueue.step s e = some s' → (s'.Intact ↔ s.Fits e) := by
  obtain ⟨s, -, hs, htest⟩ := System.exists_reachableUnder decodeMqueue MqueueState.Fits
    [.pause 0, .resume 5, .read]
    (fun s => s.accepted.length = 2 ∧ s.handled.length = 1)
    (by decide +kernel) (by decide +kernel)
  exact ⟨s, hs, htest, decodeMqueue_integrity hs⟩

/-- Sixty-four pauses are accepted before the first is read, although the queue has room
for sixty-three; to the decode thread it is then empty. A stop overwrites the first of them
and is what the decode thread reads. -/
theorem pauses_overwritten : ∃ s,
    decodeMqueue.runFrom decodeMqueue.init (List.replicate 64 (.pause 0)) = some s ∧
      (s.accepted = List.replicate 64 (audioPause 0).message ∧ s.handled = []) ∧
      decodeMqueue.step s .read = some s ∧
      (decodeMqueue.runFrom s [.decoderStop 0, .read]).map MqueueState.handled =
        some [(audioDecoderStop 0).message] := by
  obtain ⟨s, hrun, -, hlogs, hused, hstop⟩ := System.exists_reachableUnder decodeMqueue
    (fun _ _ => True) (replicate 64 (.pause 0))
    (fun s => (s.accepted = replicate 64 (audioPause 0).message ∧ s.handled = []) ∧
      s.queue.fifo.bytesUsed = 0 ∧
      (decodeMqueue.runFrom s [.decoderStop 0, .read]).map MqueueState.handled =
        some [(audioDecoderStop 0).message])
    (by decide +kernel) (by decide +kernel)
  exact ⟨s, hrun, hlogs, if_pos hused, hstop⟩

end BeepMusic.Audio
