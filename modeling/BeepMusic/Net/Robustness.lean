import BeepMusic.Net.Receiver

/-!
What a peer can do to a connection. The size of a payload is a word that is taken as an
`int` and added to the size of the fixed part without a check. As long as that sum is an
`int`, no call takes more than is buffered, and the cursor stays in the buffer.
-/

namespace BeepMusic.Net

open Lib List

theorem Cmd.packetSize_le_of_varSize {cmd : Cmd} {i : ℕ} (h : cmd.varSize = some i) :
    cmd.packetSize ≤ 16 := by
  cases cmd with
  | buffer | syncData | syncTo => decide
  | nack | ack | start | stEnd | syncPt | stBegin | syncWait | flush => exact nomatch h

namespace RecvCall

/-- A call takes bytes that are buffered, and so is the payload of a callback. -/
def InRange (call : RecvCall) : Prop :=
  0 ≤ call.nhandled ∧ call.nhandled ≤ call.buffered ∧
    ∀ p ∈ call.payload, 0 ≤ p.2 ∧ p.1 + p.2 ≤ (call.buffered : ℤ)

/-- The size field leaves room in an `int` for the fixed part. -/
def SizeFits (call : RecvCall) : Prop := ∀ size ∈ call.sizeField, size.toNat + 16 < 2 ^ 31

-- named, so that it does not go through all sizes
instance (call : RecvCall) : Decidable call.SizeFits :=
  Option.decidableForallMem call.sizeField

end RecvCall

namespace Conn

variable (events : Events) (c : Conn)

theorem toInt_eq {n : ℤ} (hlow : -2 ^ 31 ≤ n) (hhigh : n < 2 ^ 31) : toInt n = n := by
  rw [toInt]
  omega

/-- A packet changes neither the buffer nor the calls. -/
theorem takePacket_frame (cmd : Cmd) (word : ℕ → UInt32) (payload : Bytes) :
    (c.takePacket events cmd word payload).buffer = c.buffer ∧
      (c.takePacket events cmd word payload).calls = c.calls ∧
      (c.takePacket events cmd word payload).corrupt = c.corrupt := by
  have honPacket : (c.onPacket events cmd word payload).2.buffer = c.buffer ∧
      (c.onPacket events cmd word payload).2.calls = c.calls ∧
      (c.onPacket events cmd word payload).2.corrupt = c.corrupt := by
    rw [onPacket]
    split
    · exact ⟨rfl, rfl, rfl⟩
    · split_ifs <;> exact ⟨rfl, rfl, rfl⟩
  have hrespond : ∀ (c : Conn) (buf : Bytes), (c.beepRespond buf).buffer = c.buffer ∧
      (c.beepRespond buf).calls = c.calls ∧ (c.beepRespond buf).corrupt = c.corrupt := by
    intro c buf
    rw [beepRespond]
    split_ifs <;> exact ⟨rfl, rfl, rfl⟩
  simp only [takePacket]
  split_ifs
  · obtain ⟨hbuffer, hcalls, hcorrupt⟩ := hrespond (c.onPacket events cmd word payload).2
      (responseBytes (c.onPacket events cmd word payload).1)
    exact ⟨hbuffer.trans honPacket.1, hcalls.trans honPacket.2.1, hcorrupt.trans honPacket.2.2⟩
  · exact honPacket

/-- What a call can do: wait for more, skip a word, or take a packet. -/
theorem onRecv_cases :
    (∃ size, c.onRecv events = (⟨c.buffer.length, 0, size, none⟩, c)) ∨
    (4 ≤ c.buffer.length ∧
      c.onRecv events = (⟨c.buffer.length, 4, none, none⟩, { c with errors := c.errors + 1 })) ∨
    (∃ cmd word payload, cmd.packetSize ≤ c.buffer.length ∧ c.onRecv events =
      (⟨c.buffer.length, cmd.packetSize, none, none⟩, c.takePacket events cmd word payload)) ∨
    ∃ cmd size word payload, cmd.packetSize ≤ 16 ∧
      c.netRead (toInt (cmd.packetSize + toInt (UInt32.toNat size))) ∧ c.onRecv events =
        (⟨c.buffer.length, toInt (cmd.packetSize + toInt size.toNat), some size,
          some (cmd.packetSize, toInt size.toNat)⟩, c.takePacket events cmd word payload) := by
  simp only [onRecv]
  by_cases hshort : c.buffer.length < 4
  · rw [if_pos hshort]
    exact .inl ⟨none, rfl⟩
  rw [if_neg hshort]
  split
  · exact .inr (.inl ⟨Nat.not_lt.mp hshort, rfl⟩)
  · rename_i cmd _
    by_cases hpart : c.buffer.length < cmd.packetSize
    · rw [if_pos hpart]
      exact .inl ⟨none, rfl⟩
    rw [if_neg hpart]
    split
    · exact .inr (.inr (.inl ⟨cmd, _, _, Nat.not_lt.mp hpart, rfl⟩))
    · rename_i i hvar
      by_cases hread : c.netRead (toInt (cmd.packetSize + toInt
          (UInt32.ofNat (wordAt 4 c.buffer i)).toNat))
      · rw [if_pos hread]
        exact .inr (.inr (.inr ⟨cmd, _, _, _, cmd.packetSize_le_of_varSize hvar, hread, rfl⟩))
      · rw [if_neg hread]
        exact .inl ⟨_, rfl⟩

theorem onRecv_buffered : (c.onRecv events).1.buffered = c.buffer.length := by
  obtain ⟨_, heq⟩ | ⟨-, heq⟩ | ⟨_, _, _, -, heq⟩ | ⟨_, _, _, _, -, -, heq⟩ :=
    onRecv_cases events c
  all_goals rw [heq]

theorem onRecv_frame : (c.onRecv events).2.buffer = c.buffer ∧
    (c.onRecv events).2.calls = c.calls ∧ (c.onRecv events).2.corrupt = c.corrupt := by
  obtain ⟨_, heq⟩ | ⟨-, heq⟩ | ⟨cmd, word, payload, -, heq⟩ |
      ⟨cmd, _, word, payload, -, -, heq⟩ := onRecv_cases events c
  · rw [heq]
    exact ⟨rfl, rfl, rfl⟩
  · rw [heq]
    exact ⟨rfl, rfl, rfl⟩
  · rw [heq]
    exact takePacket_frame events c cmd word payload
  · rw [heq]
    exact takePacket_frame events c cmd word payload

theorem onRecv_inRange {events : Events} {c : Conn} (h : (c.onRecv events).1.SizeFits) :
    (c.onRecv events).1.InRange := by
  obtain ⟨_, heq⟩ | ⟨hlen, heq⟩ | ⟨cmd, word, payload, hlen, heq⟩ |
      ⟨cmd, size, word, payload, hreq, hread, heq⟩ := onRecv_cases events c
  · rw [heq]
    exact ⟨Int.le_refl 0, Int.natCast_nonneg _, nofun⟩
  · rw [heq]
    exact ⟨(by decide : (0 : ℤ) ≤ 4), Int.ofNat_le.mpr hlen, nofun⟩
  · rw [heq]
    exact ⟨Int.natCast_nonneg _, Int.ofNat_le.mpr hlen, nofun⟩
  · rw [heq] at h ⊢
    -- neither the size nor the sum with the fixed part wraps around
    have hsize : size.toNat + 16 < 2 ^ 31 := h size rfl
    have hvar : toInt size.toNat = size.toNat := toInt_eq (by omega) (by omega)
    have hsum : toInt (cmd.packetSize + size.toNat) = cmd.packetSize + size.toNat :=
      toInt_eq (by omega) (by omega)
    rw [hvar, hsum] at hread ⊢
    have hle : (cmd.packetSize + size.toNat : ℤ) ≤ c.buffer.length := of_decide_eq_true hread
    refine ⟨Int.add_nonneg (Int.natCast_nonneg _) (Int.natCast_nonneg _), hle, fun p hp => ?_⟩
    cases hp
    exact ⟨Int.natCast_nonneg _, hle⟩

/-- The calls of `handle` come behind those before. -/
theorem calls_handle (fuel : ℕ) : c.calls <+: (handle events fuel c).calls := by
  induction fuel generalizing c with
  | zero => exact prefix_rfl
  | succ fuel ih =>
    have hcalls : c.calls <+: (c.onRecv events).2.calls ++ [(c.onRecv events).1] := by
      rw [(onRecv_frame events c).2.1]
      exact prefix_append _ _
    simp only [handle]
    split_ifs
    · exact hcalls
    · exact hcalls.trans (ih ((c.onRecv events).2.consume (c.onRecv events).1))
    · exact hcalls

/-- What holds of a connection whose calls have all been in range. -/
structure Sound (c : Conn) : Prop where
  corrupt : c.corrupt = false
  cursor : c.buffer.length ≤ connBufSize
  calls : ∀ call ∈ c.calls, call.InRange

/-- A call that is in range keeps the cursor in the buffer. -/
theorem Sound.consume {events : Events} {c : Conn} (h : c.Sound)
    (hrange : (c.onRecv events).1.InRange) :
    ((c.onRecv events).2.consume (c.onRecv events).1).Sound := by
  obtain ⟨hbuffer, hcalls, hcorrupt⟩ := onRecv_frame events c
  constructor
  · exact hcorrupt.trans h.corrupt
  · have hdrop := length_drop (i := (c.onRecv events).1.nhandled.toNat) (l := c.buffer)
    have hcursor := h.cursor
    simp only [Conn.consume, hbuffer]
    omega
  · intro call hcall
    simp only [Conn.consume, hcalls] at hcall
    rcases mem_append.mp hcall with hold | hnew
    · exact h.calls call hold
    · exact mem_singleton.mp hnew ▸ hrange

theorem Sound.handle {events : Events} (fuel : ℕ) {c : Conn} (h : c.Sound)
    (hfits : ∀ call ∈ (handle events fuel c).calls, call.SizeFits) :
    (Conn.handle events fuel c).Sound := by
  induction fuel generalizing c with
  | zero => exact h
  | succ fuel ih =>
    -- the condition is about all calls of the loop, so about the first one too
    have hlast : ∀ calls : List RecvCall, (c.onRecv events).1 ∈ calls ++ [(c.onRecv events).1] :=
      fun calls => mem_append_right calls (mem_singleton_self _)
    have hmem : (c.onRecv events).1 ∈ (Conn.handle events (fuel + 1) c).calls := by
      simp only [Conn.handle]
      split_ifs
      · exact hlast _
      · exact (calls_handle events _ fuel).subset (hlast _)
      · exact hlast _
    have hrange := onRecv_inRange (hfits _ hmem)
    have hin : ¬((c.onRecv events).1.nhandled < 0 ∨
        ((c.onRecv events).2.buffer.length : ℤ) < (c.onRecv events).1.nhandled) := by
      have hle := hrange.2.1
      rw [onRecv_buffered, ← (onRecv_frame events c).1] at hle
      exact not_or.mpr ⟨Int.not_lt.mpr hrange.1, Int.not_lt.mpr hle⟩
    have hconsume := h.consume hrange
    simp only [Conn.handle, if_neg hin] at hfits ⊢
    split_ifs at hfits ⊢
    · exact ih hconsume hfits
    · exact hconsume

theorem Sound.pollIn {events : Events} {c : Conn} {chunk : Bytes} (h : c.Sound)
    (hroom : c.buffer.length + chunk.length ≤ connBufSize)
    (hfits : ∀ call ∈ (c.pollIn events chunk).calls, call.SizeFits) :
    (c.pollIn events chunk).Sound := by
  rw [← length_append] at hroom
  have hread : Sound { c with buffer := c.buffer ++ chunk } := ⟨h.corrupt, hroom, h.calls⟩
  simp only [Conn.pollIn] at hfits ⊢
  split_ifs at hfits ⊢
  · obtain ⟨hcorrupt, hcursor, hcalls⟩ := hread.handle _ hfits
    exact ⟨hcorrupt, hcursor, hcalls⟩
  · exact hread.handle _ hfits

theorem calls_pollIn (chunk : Bytes) : c.calls <+: (c.pollIn events chunk).calls := by
  have hcalls := calls_handle events { c with buffer := c.buffer ++ chunk }
    (c.buffer.length + chunk.length + 1)
  simp only [pollIn]
  split_ifs <;> exact hcalls

end Conn

/-- As long as the sizes that a peer sends leave room for the fixed part, whatever the bytes
and the reads, every call takes bytes that are buffered and gives such bytes to a callback,
and the cursor stays in the buffer. -/
theorem connection_sound (events : Events) {c : Conn} (h : (connection events).Reachable c)
    (hfits : ∀ call ∈ c.calls, call.SizeFits) : c.Sound := by
  refine h.invariant (I := fun c => (∀ call ∈ c.calls, call.SizeFits) → c.Sound) ?_ ?_ hfits
  · exact fun _ => ⟨rfl, Nat.zero_le _, nofun⟩
  · intro c e c' hsound hstep hfits
    simp only [connection, Conn.step] at hstep
    cases e with
    | pollIn chunk =>
      simp only [Option.ite_none_right_eq_some, Option.some.injEq] at hstep
      obtain ⟨hcan, rfl⟩ := hstep
      simp only [Conn.canRead, Bool.and_eq_true, decide_eq_true_eq] at hcan
      have hbefore : ∀ call ∈ c.calls, call.SizeFits := fun call hcall =>
        hfits call ((Conn.calls_pollIn events c chunk).subset hcall)
      exact (hsound hbefore).pollIn hcan.2 hfits
    | pollOut amount =>
      simp only [Option.ite_none_right_eq_some, Option.some.injEq] at hstep
      obtain ⟨-, rfl⟩ := hstep
      obtain ⟨hcorrupt, hcursor, hcalls⟩ := hsound hfits
      exact ⟨hcorrupt, hcursor, hcalls⟩

/-- All callbacks are registered, and answer yes. -/
def Events.all : Events := ⟨fun _ => true, fun _ _ => true⟩

/-- Two bytes of payload, the second of which comes with the next read. -/
theorem connection_sound_cut_payload :
    ∃ c, (connection Events.all).Reachable c ∧ c.called = [.onBuffer 2 [7, 8]] ∧ c.Sound := by
  obtain ⟨c, hreach, hfits, hcalled⟩ := System.exists_reachable (connection Events.all)
    [.pollIn [0x20, 0, 0, 5, 0, 0, 0, 2, 7], .pollIn [8, 0x20]]
    (fun c => (∀ call ∈ c.calls, call.SizeFits) ∧ c.called = [.onBuffer 2 [7, 8]])
    (by decide +kernel)
  exact ⟨c, hreach, hcalled, connection_sound Events.all hreach hfits⟩

/-- A size of -16: the call returns -8, and the cursor leaves the buffer. -/
theorem not_sound_of_negative_size :
    ∃ c, (connection Events.all).Reachable c ∧ ¬c.Sound ∧ c.corrupt = true ∧
      c.calls = [⟨8, -8, some 0xFFFFFFF0, some (8, -16)⟩] ∧
      c.called = [.onBuffer 0xFFFFFFF0 []] := by
  obtain ⟨c, hreach, hcorrupt, hcalls, hcalled⟩ := System.exists_reachable (connection Events.all)
    [.pollIn [0x20, 0, 0, 5, 0xFF, 0xFF, 0xFF, 0xF0]]
    (fun c => c.corrupt = true ∧ c.calls = [⟨8, -8, some 0xFFFFFFF0, some (8, -16)⟩] ∧
      c.called = [.onBuffer 0xFFFFFFF0 []])
    (by decide +kernel)
  refine ⟨c, hreach, fun hsound => ?_, hcorrupt, hcalls, hcalled⟩
  rw [hsound.corrupt] at hcorrupt
  exact Bool.false_ne_true hcorrupt

end BeepMusic.Net
