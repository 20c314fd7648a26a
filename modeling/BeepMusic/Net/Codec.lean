import Mathlib.Data.List.GetD
import BeepMusic.Net.Robustness

/-!
A packet of the stream channel that has arrived as a whole. The next call of
`stream_ch_on_recv` takes the bytes that `stream_ch_send_packet` wrote for it and no others,
and calls the callback with the fields and the payload that were sent.
-/

namespace BeepMusic.Net

open Lib List

namespace Packet

/-- The callback that a packet is meant for, with its fields. -/
def callback : Packet → Callback
  | start id => .onStart id
  | stEnd id => .onStEnd id
  | syncPt id seq => .onSyncPt id seq
  | buffer payload => .onBuffer (.ofNat payload.length) payload
  | stBegin type transitionType transitionPeriod replayGain outputThreshold polarityInversion
      outputChannels =>
      .onStBegin type transitionType transitionPeriod replayGain outputThreshold
        polarityInversion outputChannels
  | flush setCookie => .onFlush setCookie
  | syncData payload => .onSyncData (.ofNat payload.length) payload
  | syncTo syncMtu payload => .onSyncTo syncMtu (.ofNat payload.length) payload
  | syncWait => .onSyncWait

variable {p : Packet}

theorem payload_eq_nil_of_varSize (h : p.cmd.varSize = none) : p.payload = [] := by
  cases p with
  | buffer | syncData | syncTo => exact nomatch h
  | start | stEnd | syncPt | stBegin | flush | syncWait => rfl

/-- The word that the receiver takes for the size holds the size. -/
theorem getD_words_of_varSize {i : ℕ} (h : p.cmd.varSize = some i) :
    i < p.words.length ∧ UInt32.ofNat (p.words.getD i 0) = UInt32.ofNat p.payload.length := by
  cases p with
  | buffer | syncData =>
    cases h
    exact ⟨Nat.lt_add_one 1, UInt32.ofNat_toNat⟩
  | syncTo =>
    cases h
    exact ⟨Nat.lt_add_of_pos_right Nat.two_pos, UInt32.ofNat_toNat⟩
  | start | stEnd | syncPt | stBegin | flush | syncWait => exact nomatch h

/-- The fields are read from the words where they were written. -/
theorem callback_words {word : ℕ → UInt32}
    (h : ∀ i < p.words.length, word i = UInt32.ofNat (p.words.getD i 0)) :
    Conn.callback p.cmd word p.payload = some p.callback := by
  have hword : ∀ i < p.data.length, word (i + 1) = p.data.getD i 0 := by
    intro i hi
    have hlt : i + 1 < p.words.length := by
      rw [words, length_cons, length_map]
      exact Nat.succ_lt_succ hi
    have hmap : (p.data.map UInt32.toNat).getD i 0 = (p.data.getD i 0).toNat :=
      List.getD_map p.data 0 UInt32.toNat
    rw [h (i + 1) hlt, words, getD_cons_succ, hmap, UInt32.ofNat_toNat]
  cases p <;> simp [cmd, Conn.callback, callback, payload, data, hword]

/-- The command comes back out of the first word. -/
theorem cmd_of_word (p : Packet) :
    (if p.words.getD 0 0 / 2 ^ 28 = 2 then Cmd.ofCode (p.words.getD 0 0 % 2 ^ 28) else none) =
      some p.cmd := by
  have hcode := p.cmd.code_lt
  have htype : (chTypeStream + p.cmd.code) / 2 ^ 28 = 2 := by
    simp only [chTypeStream]
    omega
  have hmod : (chTypeStream + p.cmd.code) % 2 ^ 28 = p.cmd.code := by
    simp only [chTypeStream]
    omega
  rw [words, getD_cons_zero, if_pos htype, hmod, Cmd.ofCode_code]

end Packet

namespace Conn

variable {events : Events} {c : Conn} {p : Packet}

theorem called_takePacket {word : ℕ → UInt32}
    (h : ∀ i < p.words.length, word i = UInt32.ofNat (p.words.getD i 0)) :
    (c.takePacket events p.cmd word p.payload).called =
      c.called ++ if events.registered p.cmd then [p.callback] else [] := by
  simp only [takePacket, onPacket, Packet.callback_words h, beepRespond]
  split_ifs <;> simp

/-- Behind a packet anything may follow. -/
theorem onRecv_encode {tail : Bytes} (h : c.buffer = p.encode ++ tail)
    (hfits : p.encode.length ≤ connBufSize) :
    (c.onRecv events).1.nhandled = p.encode.length ∧ (c.onRecv events).2.called =
      c.called ++ if events.registered p.cmd then [p.callback] else [] := by
  have hsize : p.encode.length ≤ 32768 := hfits
  have hlength := p.length_encode
  have hwords := p.length_words
  have hpos : 0 < p.words.length := Nat.succ_pos _
  have hbuffer : c.buffer.length = p.encode.length + tail.length := by rw [h, length_append]
  have hword : ∀ i < p.words.length, wordAt 4 c.buffer i = p.words.getD i 0 := by
    intro i hi
    rw [h, Packet.encode, append_assoc]
    exact wordAt_encodeWords _ hi p.words_lt
  have hcalled := @called_takePacket events c p _ fun i hi => congrArg UInt32.ofNat (hword i hi)
  simp only [onRecv]
  rw [if_neg (by omega), hword 0 hpos, p.cmd_of_word]
  simp only [if_neg (by omega : ¬c.buffer.length < p.cmd.packetSize)]
  rcases hvar : p.cmd.varSize with _ | i
  · rw [Packet.payload_eq_nil_of_varSize hvar] at hlength hcalled
    exact ⟨congrArg Nat.cast hlength.symm, hcalled⟩
  · obtain ⟨hi, hfield⟩ := Packet.getD_words_of_varSize hvar
    have hnat : (UInt32.ofNat p.payload.length).toNat = p.payload.length :=
      UInt32.toNat_ofNat_of_lt' (by omega : p.payload.length < 4294967296)
    have hvarSize : toInt p.payload.length = p.payload.length := toInt_eq (by omega) (by omega)
    have hreadSize : toInt (p.cmd.packetSize + p.payload.length) = p.encode.length := by
      rw [toInt_eq (by omega) (by omega), hlength, Int.natCast_add]
    have hread : c.netRead p.encode.length = true := decide_eq_true (by omega)
    have hpayload : (c.buffer.drop p.cmd.packetSize).take p.payload.length = p.payload := by
      rw [h, Packet.encode, append_assoc, drop_left', take_left]
      rw [length_encodeWords, hwords]
    simp only [hword i hi, hfield, hnat, hvarSize, hreadSize, if_pos hread, Int.toNat_natCast,
      hpayload]
    exact ⟨trivial, hcalled⟩

end Conn

end BeepMusic.Net
