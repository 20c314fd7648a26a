import Mathlib.Data.Fintype.Pi
import Mathlib.Data.Int.ModEq
import Mathlib.Data.Sign.Defs

/-!
The decoder of the knob (`knob.c`). Two optical channels are debounced, and their bits go
around a cycle when the knob is turned. The decoder keeps a direction and a flag only, but
with the bits these tell how far the knob is from where it rested.
-/

namespace BeepMusic.Iomcu

def encoderState (vals : Bool → Bool) : ℕ := (vals true).toNat <<< 1 ||| (vals false).toNat

/-- The static variables of `find_turns`; an array is indexed by the channel. -/
structure Encoder where
  channelVals : Bool → Bool
  prevEncoderState : ℕ
  encoderArmed : Bool
  direction : SignType

def Encoder.findTurns (k : Encoder) (channel isUp : Bool) : SignType × Encoder :=
  let channelVals := Function.update k.channelVals channel isUp
  let state := encoderState channelVals
  if state = k.prevEncoderState then (0, { k with channelVals })
  else
    let k := { k with channelVals, prevEncoderState := state }
    match state with
    | 0 => if k.encoderArmed then (k.direction, { k with encoderArmed := false }) else (0, k)
    | 1 =>
      if !k.encoderArmed then (0, { k with direction := -1 })
      else if k.direction ≠ 1 then (0, { k with encoderArmed := false })
      else (0, k)
    | 2 =>
      if !k.encoderArmed then (0, { k with direction := 1 })
      else if k.direction ≠ -1 then (0, { k with encoderArmed := false })
      else (0, k)
    | _ => (0, { k with encoderArmed := true })

structure Knob where
  prevUp : Bool → Bool := fun _ => false
  runCount : Bool → UInt32 := fun _ => 0
  sendingUp : Bool → Bool := fun _ => false
  encoder : Encoder := ⟨fun _ => false, 0, false, 0⟩
  encoderCount : Int8 := 0

namespace Knob

def addPoint (k : Knob) (channel : Bool) (value : UInt8) : SignType × Knob :=
  -- UP_VAL_THRESHOLD, UP_SEQ_THRESHOLD and DOWN_SEQ_THRESHOLD
  let up := decide (value > 100)
  let runCount := if k.prevUp channel ≠ up then 0 else k.runCount channel + 1
  let sendingUp :=
    if up ∧ runCount > 10 then true
    else if ¬up ∧ runCount > 40 then false
    else k.sendingUp channel
  let (val, encoder) := k.encoder.findTurns channel sendingUp
  (val,
    { k with
      prevUp := Function.update k.prevUp channel up
      runCount := Function.update k.runCount channel runCount
      sendingUp := Function.update k.sendingUp channel sendingUp
      encoder })

/-- `knob_encoder_proc_data`, for one sample. -/
def procData (k : Knob) (channel : Bool) (value : UInt8) : Knob :=
  let (val, k) := k.addPoint channel value
  { k with
    encoderCount := if val ≠ 0 then k.encoderCount + Int8.ofInt val else k.encoderCount }

def readCount (k : Knob) : Int8 × Knob :=
  let ret := k.encoderCount
  (ret, { k with encoderCount := if ret ≠ 0 then k.encoderCount - ret else k.encoderCount })

end Knob

/-- A step of the bits along the cycle 0, 2, 3, 1, or against it. -/
def quarter (old new : ℕ) : ℤ :=
  if new = old then 0 else if (old, new) ∈ [(0, 2), (2, 3), (3, 1), (1, 0)] then 1 else -1

/-- The knob, and for statements: the steps of the debounced bits, and the sums of what
`find_turns` and `knob_encoder_read_count` returned. -/
structure KnobRun where
  knob : Knob := {}
  quarters : ℤ := 0
  turns : ℤ := 0
  handedOut : ℤ := 0

inductive KnobEvent
  | sample (channel : Bool) (value : UInt8)
  | readCount

variable (events : List KnobEvent)

namespace KnobRun

def step (r : KnobRun) : KnobEvent → KnobRun
  | .sample channel value =>
    let knob := r.knob.procData channel value
    { r with
      knob
      quarters := r.quarters +
        quarter (encoderState r.knob.sendingUp) (encoderState knob.sendingUp)
      turns := r.turns + (r.knob.addPoint channel value).1 }
  | .readCount =>
    { r with
      knob := r.knob.readCount.2
      handedOut := r.handedOut + r.knob.readCount.1.toInt }

def run : KnobRun := events.foldl step {}

end KnobRun

/-- How far the knob is from where it rested, for the bits, the flag and the direction. -/
def place : ℕ → Bool → SignType → Option ℤ
  | 0, false, _ => some 0
  | 2, false, .pos => some 1
  | 3, true, .pos => some 2
  | 1, true, .pos => some 3
  | 1, false, .neg => some (-1)
  | 3, true, .neg => some (-2)
  | 2, true, .neg => some (-3)
  | _, _, _ => none

/-- The encoder has these bits, and the knob is at a place. -/
def Encoder.At (k : Encoder) (vals : Bool → Bool) (p : ℤ) : Prop :=
  k.channelVals = vals ∧ k.prevEncoderState = encoderState vals ∧
    place (encoderState vals) k.encoderArmed k.direction = some p
deriving Decidable

theorem findTurns_all : ∀ (vals : Bool → Bool) (armed : Bool) (direction : SignType)
    (channel isUp : Bool), ∀ p ∈ place (encoderState vals) armed direction,
      let t := Encoder.findTurns ⟨vals, encoderState vals, armed, direction⟩ channel isUp
      let vals' := Function.update vals channel isUp
      t.2.At vals' (p + quarter (encoderState vals) (encoderState vals') - 4 * t.1) := by
  decide +kernel

/-- A step moves the knob, and a turn is returned when it rests again. -/
theorem Encoder.At.findTurns {k : Encoder} {vals : Bool → Bool} {p : ℤ} (h : k.At vals p)
    (channel isUp : Bool) :
    (k.findTurns channel isUp).2.At (Function.update vals channel isUp)
      (p + quarter (encoderState vals) (encoderState (Function.update vals channel isUp)) -
        4 * (k.findTurns channel isUp).1) := by
  obtain ⟨rfl, hstate, hplace⟩ := h
  have hall := findTurns_all k.channelVals k.encoderArmed k.direction channel isUp p hplace
  rwa [← hstate] at hall ⊢

namespace KnobRun

/-- The place is what the steps are ahead of the turns. -/
structure Counts (r : KnobRun) : Prop where
  encoder : r.knob.encoder.At r.knob.sendingUp (r.quarters - 4 * r.turns)
  count : r.handedOut + r.knob.encoderCount.toInt ≡ r.turns [ZMOD 256]

theorem toInt_count (count : Int8) (val : SignType) :
    (if val ≠ 0 then count + Int8.ofInt val else count).toInt ≡ count.toInt + val [ZMOD 256] := by
  cases val with
  | zero => simp
  | neg => exact Int8.toInt_add .. ▸ Int.bmod_emod
  | pos => exact Int8.toInt_add .. ▸ Int.bmod_emod

theorem Counts.step {r : KnobRun} (h : r.Counts) (e : KnobEvent) : (r.step e).Counts := by
  cases e with
  | sample channel value =>
    -- whatever bit the sample is debounced to, the encoder gets it
    obtain ⟨isUp, hsending, hencoder⟩ : ∃ isUp,
        (r.knob.procData channel value).sendingUp =
            Function.update r.knob.sendingUp channel isUp ∧
          r.knob.encoder.findTurns channel isUp = ((r.knob.addPoint channel value).1,
            (r.knob.procData channel value).encoder) := ⟨_, rfl, rfl⟩
    have hat := h.encoder.findTurns channel isUp
    have hahead (q val : ℤ) : r.quarters - 4 * r.turns + q - 4 * val =
        r.quarters + q - 4 * (r.turns + val) := by omega
    rw [hencoder, ← hsending, hahead] at hat
    refine ⟨hat, ?_⟩
    have hcount := toInt_count r.knob.encoderCount (r.knob.addPoint channel value).1
    refine (hcount.add_left r.handedOut).trans ?_
    rw [← Int.add_assoc]
    exact h.count.add_right _
  | readCount =>
    refine ⟨h.encoder, ?_⟩
    have hcount := h.count
    by_cases hzero : r.knob.encoderCount = 0 <;> simp_all [KnobRun.step, Knob.readCount]

theorem counts_run : (run events).Counts := by
  suffices hrun : ∀ r : KnobRun, r.Counts → (events.foldl step r).Counts from
    hrun {} ⟨by decide, rfl⟩
  induction events with
  | nil => exact fun _ h => h
  | cons e events ih => exact fun r h => ih _ (h.step e)

end KnobRun

/-- When both channels are down, the steps are four for each turn; and what was handed out and
what is pending add up to the turns, modulo 256. -/
theorem knob_counts_turns : ((KnobRun.run events).knob.sendingUp = (fun _ => false) →
      (KnobRun.run events).quarters = 4 * (KnobRun.run events).turns) ∧
    (KnobRun.run events).handedOut + (KnobRun.run events).knob.encoderCount.toInt ≡
      (KnobRun.run events).turns [ZMOD 256] := by
  have h := KnobRun.counts_run events
  refine ⟨fun hdown => ?_, h.count⟩
  have hplace := h.encoder.2.2
  rw [hdown] at hplace
  have hrest : ∀ armed direction, ∀ p ∈ place 0 armed direction, p = 0 := by decide
  have hzero := hrest _ _ _ hplace
  omega

end BeepMusic.Iomcu
