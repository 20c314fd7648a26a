import Mathlib.Algebra.BigOperators.Group.List.Basic
import Mathlib.Algebra.Order.Ring.Int
import Mathlib.Data.Nat.Cast.Basic
import BeepMusic.Distributor.Player
import BeepMusic.Lib.System

/-!
Flow control between a `Player` object and its device. The object keeps an
estimate of the room in the device's stream buffer, `state.streambuf_free`, which
it lowers with every packet it writes and which every report replaces. Packets are
handled by the device in order, some time after they were written, and a report is
sampled some time before it arrives.
-/

namespace BeepMusic.Distributor

open Lib List

/-- `STREAMBUF_SIZE` of `streambuf.h`. -/
def streambufBytes : ℕ := 1 * 1024 * 1024

/-- What a packet takes off the estimate. -/
def Send.cost : Send → ℤ
  | .start | .trackBegin _ | .trackEnd => streamCommandSize
  | .buffer data => streamCommandSize + data.length
  | .stop _ | .flush _ => 0

/-- The audio data of a packet, in bytes. -/
def Send.dataSize : Send → ℕ
  | .buffer data => data.length
  | _ => 0

/-- A report on its way, with the number of packets the device had handled when
it was sampled. -/
structure Report where
  state : PlayerState
  handled : ℕ

/-- A `Player` object (`state`, `hasError`), the packets on its stream, oldest
first, and its device: `used` bytes of the stream buffer are not discarded yet. -/
structure Link where
  state : PlayerState
  hasError : Bool
  inFlight : List Send
  sent : ℕ
  handled : ℕ
  used : ℕ
  started : Bool
  streaming : Bool
  /-- The player process has ended. -/
  crashed : Bool
  reports : List Report

inductive LinkInput
  /-- The object sends a packet; `written` says whether writing it succeeds. -/
  | send (x : Send) (written : Bool)
  /-- The device handles the oldest packet; `slot` says whether the stream buffer
  has a command slot left. -/
  | handle (slot : Bool)
  /-- The decode thread discards data, or reaches the end of the stream. -/
  | discard (n : ℕ)
  | endStream
  /-- The device executes a `stop` call, which does not go over the stream. -/
  | stop
  /-- The device answers `get_state`; `state` has the fields that are not
  modelled. -/
  | sample (state : PlayerState)
  | deliver (n : ℕ)

variable (s : Link)

namespace Link

/-- After `hello`, whose answer is the first report. -/
def init (used : ℕ) (status : PlayerState) : Link where
  state := { status with streambufFree := streambufBytes - used }
  hasError := false
  inFlight := []
  sent := 0
  handled := 0
  used := used
  started := false
  streaming := false
  crashed := false
  reports := []

/-- The free space as the device reports it: `streambuf_size - streambuf_used`. -/
def free : ℤ := streambufBytes - s.used

/-- `fifo2_bytes_free`. One byte of the ring is never used. -/
def room : ℕ := streambufBytes - 1 - s.used

/-- The data on the stream that the device has not handled. -/
def dataInFlight : ℕ := (s.inFlight.map Send.dataSize).sum

/-- `Player:start`, `:track_begin`, `:buffer`, `:track_end` and `:flush`. -/
def send (x : Send) (written : Bool) : Link :=
  let s := { s with state := x.charge s.state }
  if s.hasError = false ∧ written = true then
    { s with inFlight := s.inFlight ++ [x], sent := s.sent + 1 }
  else { s with hasError := true }

/-- `streambuf_cmd_enq`, which ends the process if there is no room. -/
def enqCommand (slot : Bool) (size : ℕ) : Link :=
  if s.crashed then s
  else if slot = true ∧ size < s.room then { s with used := s.used + size }
  else { s with crashed := true }

/-- What the device does with a packet; `none` while it has to wait for room. A
player that is not started drops what it is sent. -/
def handlePacket (slot : Bool) : Send → Option Link
  | .start => some { s with started := true }
  | .trackBegin _ =>
    if s.started then
      some (({ s with streaming := true }.enqCommand slot 36).enqCommand slot 4)
    else some s
  | .buffer data =>
    if s.started = false then some s
    else if data.length ≤ s.room then
      some { s with used := s.used + data.length, streaming := true }
    else none
  | .trackEnd =>
    if s.started = false then some s
    else if s.streaming then some (s.enqCommand slot 4)
    else some { s with crashed := true }
  | .flush _ => some { s with used := 0 }
  | .stop _ => none

/-- The packet has left the stream. -/
def received (rest : List Send) : Link :=
  { s with inFlight := rest, handled := s.handled + 1 }

def handle (slot : Bool) : Option Link :=
  match s.inFlight with
  | [] => none
  | x :: rest => (s.handlePacket slot x).map fun s' => s'.received rest

/-- `on_player_event`. -/
def deliver (n : ℕ) (r : Report) : Link :=
  { s with state := r.state, reports := s.reports.eraseIdx n }

/-- `stop` is a call and not a packet, and a wrong audio type ends the
distributor. -/
def isPacket : Send → Bool
  | .stop _ => false
  | .trackBegin audioType => audioType.length = 1
  | _ => true

/-- What the device does. -/
def deviceStep : LinkInput → Option Link
  | .handle slot => s.handle slot
  | .discard n => if n ≤ s.used then some { s with used := s.used - n } else none
  | .endStream => some { s with streaming := false }
  | .stop => some { s with started := false, streaming := false, used := 0 }
  | .sample state =>
    some { s with
      reports := s.reports ++ [⟨{ state with streambufFree := s.free }, s.handled⟩] }
  | .send _ _ | .deliver _ => none

def step : LinkInput → Option Link
  | .send x written => if isPacket x then some (s.send x written) else none
  | .deliver n => s.reports[n]?.map (s.deliver n)
  | input => if s.crashed then none else s.deviceStep input

end Link

/-- An object and its device, from the answer to `hello` on. -/
def link (used : ℕ) (status : PlayerState) : System Link LinkInput where
  init := .init used status
  step := Link.step

theorem Send.streambufFree_charge (x : Send) (state : PlayerState) :
    (x.charge state).streambufFree = state.streambufFree - x.cost := by
  cases x <;> simp only [charge, cost] <;> omega

theorem Send.dataSize_le_cost (x : Send) : (x.dataSize : ℤ) ≤ x.cost := by
  cases x <;> simp only [dataSize, cost, streamCommandSize] <;> omega

namespace Link

/-- The estimate leaves room for everything on the stream, and a report that the
device has handled nothing since is not too high. -/
structure Covered (s : Link) : Prop where
  estimate : s.state.streambufFree + (s.inFlight.map Send.cost).sum ≤ s.free
  counted : s.sent = s.handled + s.inFlight.length
  reports : ∀ r ∈ s.reports, r.handled ≤ s.handled ∧
    (r.handled = s.handled → r.state.streambufFree ≤ s.free)

/-- Every packet sent so far had been handled when the report that arrives was
sampled. -/
def Settled : LinkInput → Prop
  | .deliver n => ∀ r ∈ s.reports[n]?, r.handled = s.sent
  | _ => True

instance (s : Link) (input : LinkInput) : Decidable (s.Settled input) :=
  match input with
  | .deliver n => inferInstanceAs (Decidable (∀ r ∈ s.reports[n]?, r.handled = s.sent))
  | .send _ _ | .handle _ | .discard _ | .endStream | .stop | .sample _ =>
    inferInstanceAs (Decidable True)

variable {s s' : Link}

theorem covered_init (used : ℕ) (status : PlayerState) : (init used status).Covered where
  estimate := by simp [init, free]
  counted := rfl
  reports := by rintro r ⟨⟩

theorem Covered.send (h : s.Covered) (x : Send) (written : Bool) :
    (s.send x written).Covered := by
  have hcharge := x.streambufFree_charge s.state
  have hcost := x.dataSize_le_cost
  have hestimate := h.estimate
  rw [Link.send]
  split
  · refine ⟨?_, ?_, h.reports⟩
    · simp only [map_append, map_cons, map_nil, sum_append, sum_cons,
        sum_nil, hcharge]
      simp only [free] at hestimate ⊢
      omega
    · simp only [length_append, length_singleton, h.counted]
      omega
  · refine ⟨?_, h.counted, h.reports⟩
    simp only [free] at hestimate ⊢
    omega

theorem Covered.release (h : s.Covered) (hstate : s'.state = s.state)
    (hinFlight : s'.inFlight = s.inFlight) (hsent : s'.sent = s.sent)
    (hhandled : s'.handled = s.handled) (hused : s'.used ≤ s.used)
    (hreports : s'.reports = s.reports) : s'.Covered := by
  have hfree : s.free ≤ s'.free := by
    simp only [free]
    omega
  refine ⟨?_, ?_, ?_⟩
  · rw [hstate, hinFlight]
    exact h.estimate.trans hfree
  · rw [hsent, hhandled, hinFlight]
    exact h.counted
  · rw [hreports, hhandled]
    intro r hr
    obtain ⟨hle, hcurrent⟩ := h.reports r hr
    exact ⟨hle, fun heq => (hcurrent heq).trans hfree⟩

/-- The parts of the link that the device does not touch when it handles a
packet. -/
def sender (s : Link) := (s.state, s.inFlight, s.sent, s.handled, s.reports)

theorem enqCommand_spec (s : Link) (slot : Bool) (size : ℕ) :
    (s.enqCommand slot size).sender = s.sender ∧ (s.enqCommand slot size).used ≤ s.used + size := by
  rw [enqCommand]
  split
  · exact ⟨rfl, Nat.le_add_right _ _⟩
  · split
    · exact ⟨rfl, le_rfl⟩
    · exact ⟨rfl, Nat.le_add_right _ _⟩

/-- A packet takes no more room than it costs. -/
theorem handlePacket_spec {slot : Bool} {x : Send} (h : s.handlePacket slot x = some s') :
    s'.sender = s.sender ∧ (s'.used : ℤ) ≤ s.used + x.cost := by
  have hdrop : (s.used : ℤ) ≤ s.used + x.cost := by
    have hcost := x.dataSize_le_cost
    omega
  cases x with
  | start =>
    cases h
    exact ⟨rfl, hdrop⟩
  | trackBegin audioType =>
    simp only [handlePacket] at h
    split at h
    · cases h
      obtain ⟨hsender, hused⟩ := enqCommand_spec { s with streaming := true } slot 36
      obtain ⟨hsender', hused'⟩ :=
        enqCommand_spec ({ s with streaming := true }.enqCommand slot 36) slot 4
      refine ⟨hsender'.trans hsender, ?_⟩
      simp only [Send.cost, streamCommandSize] at hused hused' ⊢
      omega
    · cases h
      exact ⟨rfl, hdrop⟩
  | buffer data =>
    simp only [handlePacket] at h
    split at h
    · cases h
      exact ⟨rfl, hdrop⟩
    · split at h <;> cases h
      refine ⟨rfl, ?_⟩
      simp only [Send.cost, streamCommandSize]
      omega
  | trackEnd =>
    simp only [handlePacket] at h
    split at h
    · cases h
      exact ⟨rfl, hdrop⟩
    · split at h
      · cases h
        obtain ⟨hsender, hused⟩ := enqCommand_spec s slot 4
        refine ⟨hsender, ?_⟩
        simp only [Send.cost, streamCommandSize]
        omega
      · cases h
        exact ⟨rfl, hdrop⟩
  | flush cookie =>
    cases h
    refine ⟨rfl, ?_⟩
    simp only [Send.cost]
    omega
  | stop cookie => cases h

/-- What the packet cost makes up for the room it takes; reports sampled before
do not count any more. -/
theorem Covered.handle {slot : Bool} (h : s.Covered) (hs : s.handle slot = some s') :
    s'.Covered := by
  rw [Link.handle] at hs
  split at hs
  · cases hs
  · next x rest hflight =>
      obtain ⟨u, hu, rfl⟩ := Option.map_eq_some_iff.mp hs
      obtain ⟨hsender, hused⟩ := handlePacket_spec hu
      simp only [sender, Prod.mk.injEq] at hsender
      obtain ⟨hstate, -, hsent, hhandled, hreports⟩ := hsender
      have hestimate := h.estimate
      have hcounted := h.counted
      rw [hflight, length_cons] at hcounted
      rw [hflight, map_cons, sum_cons] at hestimate
      refine ⟨?_, ?_, ?_⟩
      · simp only [received, free, hstate] at hestimate ⊢
        omega
      · simp only [received, hsent, hhandled]
        omega
      · simp only [received, hreports, hhandled]
        intro r hr
        have hle := (h.reports r hr).1
        exact ⟨by omega, fun heq => by omega⟩

theorem Covered.deviceStep {input : LinkInput} (h : s.Covered)
    (hs : s.deviceStep input = some s') : s'.Covered := by
  cases input with
  | send | deliver => cases hs
  | handle slot => exact h.handle hs
  | discard n =>
    simp only [Link.deviceStep] at hs
    split at hs <;> cases hs
    exact h.release rfl rfl rfl rfl (Nat.sub_le _ _) rfl
  | endStream =>
    cases hs
    exact h.release rfl rfl rfl rfl le_rfl rfl
  | stop =>
    cases hs
    exact h.release rfl rfl rfl rfl (Nat.zero_le _) rfl
  | sample state =>
    cases hs
    refine ⟨h.estimate, h.counted, ?_⟩
    intro r hr
    rcases mem_append.mp hr with hr | hr
    · exact h.reports r hr
    · obtain rfl := mem_singleton.mp hr
      exact ⟨le_rfl, fun _ => le_rfl⟩

/-- A report that arrives while nothing is on the stream is still right. -/
theorem Covered.deliver {n : ℕ} {r : Report} (h : s.Covered) (hr : s.reports[n]? = some r)
    (hok : s.Settled (.deliver n)) : (s.deliver n r).Covered := by
  have hsettled : r.handled = s.sent := hok r hr
  obtain ⟨hle, hcurrent⟩ := h.reports r (mem_of_getElem? hr)
  have hcounted := h.counted
  have hempty : s.inFlight = [] := length_eq_zero_iff.mp (by omega)
  refine ⟨?_, h.counted, fun r' hr' => h.reports r' (mem_of_mem_eraseIdx hr')⟩
  have hfresh : r.state.streambufFree ≤ s.free := hcurrent (by omega)
  simpa [Link.deliver, hempty, free] using hfresh

theorem Covered.step {input : LinkInput} (h : s.Covered) (hok : s.Settled input)
    (hs : s.step input = some s') : s'.Covered := by
  cases input with
  | send x written =>
    simp only [Link.step] at hs
    split at hs <;> cases hs
    exact h.send x written
  | deliver n =>
    obtain ⟨r, hr, rfl⟩ := Option.map_eq_some_iff.mp hs
    exact h.deliver hr hok
  | handle | discard | endStream | stop | sample =>
    simp only [Link.step] at hs
    split at hs
    · cases hs
    · exact h.deviceStep hs

theorem dataInFlight_le_cost (s : Link) :
    (s.dataInFlight : ℤ) ≤ (s.inFlight.map Send.cost).sum := by
  rw [dataInFlight]
  induction s.inFlight with
  | nil => rfl
  | cons x rest ih =>
    have hx := x.dataSize_le_cost
    simp only [map_cons, sum_cons, Nat.cast_add]
    omega

end Link

/-- The estimate is never higher than the room that is left once all data on the
stream has arrived, in every run in which reports arrive settled. -/
theorem streambufFree_le_of_settled (used : ℕ) (status : PlayerState) (s : Link)
    (h : (link used status).ReachableUnder Link.Settled s) :
    s.state.streambufFree ≤ s.free - s.dataInFlight := by
  have hcovered : s.Covered :=
    h.invariant (Link.covered_init used status) fun _ _ _ hI hok hs => hI.step hok hs
  have hestimate := hcovered.estimate
  have hdata := s.dataInFlight_le_cost
  omega

/-- A player is started and sent one byte of audio. -/
def bufferOneByte : List LinkInput :=
  [.send .start true, .handle true, .send (.buffer [1]) true]

/-- The byte is handled before the report is sampled. -/
theorem streambufFree_le_one_byte :
    ∃ s, (link 0 {}).runFrom (.init 0 {})
        (bufferOneByte ++ [.handle true, .sample {}, .deliver 0]) =
        some s ∧ s.used = 1 ∧ s.state.streambufFree ≤ s.free - s.dataInFlight :=
  ⟨_, rfl, rfl, streambufFree_le_of_settled 0 {} _ (System.ReachableUnder.runFrom
    (bufferOneByte ++ [.handle true, .sample {}, .deliver 0]) .init (by decide) rfl)⟩

/-- The report is sampled while the byte is still on its way, and replaces the
estimate that accounted for it. -/
theorem streambufFree_exceeds_room :
    ∃ s, (link 0 {}).Reachable s ∧ ¬s.state.streambufFree ≤ s.free - s.dataInFlight := by
  refine ⟨_, System.Reachable.runFrom (bufferOneByte ++ [.sample {}, .deliver 0]) .init rfl, ?_⟩
  decide

end BeepMusic.Distributor
