import Mathlib.Data.List.Infix
import BeepMusic.Async.Traffic

/-!
`Mult` of `async.lua`: a coroutine that takes values from one channel and puts
each of them into every channel tapped so far, one after the other. Everything
else that happens to the channels is left to the environment, and taps may be
added at any time, also while a value is being handed out.
-/

namespace BeepMusic.Async

open Lib List Option

variable {V : Type}

/-- An entry of `self.taps`. Besides its channel there are two fields for the
proofs: how many of the values taken the tap is not to get, and the values that
have been put into its channel. -/
structure Tap (V : Type) where
  ch : ChanId
  start : ℕ
  delivered : List (Option V)

/-- Where the coroutine of a `Mult` is: in `self.channel:take()`, or in the put
of a value into the tap with the given index. -/
inductive MultPoint (V : Type)
  | taking
  | putting (v : Option V) (i : ℕ)

/-- A `Mult` and the channels. `resumed` says that the coroutine has yielded in
the call it is in, and `taken` has the values it has taken. -/
structure Mult (V : Type) where
  source : ChanId
  chan : ChanId → Channel V
  taps : List (Tap V)
  point : MultPoint V
  resumed : Bool
  taken : List (Option V)

variable (m : Mult V)

namespace Mult

/-- `Mult:_init`, before the coroutine runs for the first time. -/
def new (source : ChanId) (chan : ChanId → Channel V) : Mult V where
  source := source
  chan := chan
  taps := []
  point := .taking
  resumed := false
  taken := []

def store (ch : ChanId) (c : Channel V) : Mult V :=
  { m with chan := Function.update m.chan ch c }

/-- The head of the `ipairs` loop over the taps: a tap that was added in the
meantime is seen. -/
def loop (v : Option V) (i : ℕ) : Mult V :=
  { m with point := if i < m.taps.length then .putting v i else .taking, resumed := false }

/-- `coroutine.yield()` in the call the coroutine is in. -/
def yield : Mult V := { m with resumed := true }

/-- The tap at `i` has got the value. -/
def deliver (i : ℕ) (tap : Tap V) (v : Option V) : Mult V :=
  { m with taps := m.taps.set i { tap with delivered := tap.delivered ++ [v] } }

/-- The next call of the coroutine. -/
def resume : Option (Mult V) :=
  match m.point with
  | .taking =>
    match (m.chan m.source).take m.resumed with
    | none => some m.yield
    | some (v, c, _) => some (({ m with taken := m.taken ++ [v] }.store m.source c).loop v 0)
  | .putting v i =>
    match m.taps[i]? with
    | none => none
    | some tap =>
      match (m.chan tap.ch).put m.resumed v with
      | none => some m.yield
      | some (true, c, _) => some (((m.store tap.ch c).deliver i tap v).loop v (i + 1))
      | some (false, c, _) => some ((m.store tap.ch c).loop v (i + 1))

/-- How many of the values taken a new tap is not to get. The loop over the taps
still comes to it, so that it gets the value that is being handed out. -/
def start : ℕ :=
  match m.point with
  | .taking => m.taken.length
  | .putting _ _ => m.taken.length - 1

/-- `Mult:tap`. -/
def tap (ch : ChanId) : Mult V :=
  { m with taps := m.taps ++ [⟨ch, m.start, []⟩] }

end Mult

/-- The coroutine of the `Mult` goes on, a channel is tapped, or somebody else
uses a channel; `resumed` as in `Channel.put`. -/
inductive MultEvent (V : Type)
  | resume
  | tap (ch : ChanId)
  | put (ch : ChanId) (v : Option V) (resumed : Bool)
  | take (ch : ChanId) (resumed : Bool)
  | close (ch : ChanId)

def Mult.step : MultEvent V → Option (Mult V)
  | .resume => m.resume
  | .tap ch => some (m.tap ch)
  | .put ch v resumed => ((m.chan ch).put resumed v).map fun r => m.store ch r.2.1
  | .take ch resumed => ((m.chan ch).take resumed).map fun r => m.store ch r.2.1
  | .close ch => some (m.store ch { m.chan ch with closed := true })

variable {c c' : Channel V} {resumed sched : Bool} {v : Option V}

/-- A `Mult` over any channels. -/
def mult (source : ChanId) (chan : ChanId → Channel V) : System (Mult V) (MultEvent V) where
  init := .new source chan
  step := Mult.step

/-! ### What a put says about the channel -/

theorem Channel.put_closed {r : Bool} (h : c.put resumed v = some (r, c', sched)) :
    c'.closed = c.closed := by
  rw [put] at h
  split at h
  · cases h
    rfl
  · obtain ⟨r, -, heq⟩ := map_eq_some_iff.mp h
    cases heq
    rfl

theorem Channel.take_closed (h : c.take resumed = some (v, c', sched)) : c'.closed = c.closed := by
  rw [take] at h
  split at h
  · cases h
    rfl
  · obtain ⟨r, -, heq⟩ := map_eq_some_iff.mp h
    cases heq
    rfl

theorem Channel.closed_of_put_false (h : c.put resumed v = some (false, c', sched)) :
    c.closed = true := by
  rw [put] at h
  split at h
  · rename_i hclosed
    exact (Bool.and_eq_true_iff.mp hclosed).1
  · obtain ⟨r, -, heq⟩ := map_eq_some_iff.mp h
    cases heq

theorem Channel.open_of_put (h : ∀ c' sched, c.put resumed v ≠ some (false, c', sched)) :
    c.closed = false ∨ resumed = true := by
  cases hclosed : c.closed with
  | false => exact .inl rfl
  | true =>
    cases resumed with
    | true => exact .inr rfl
    | false => exact absurd (by simp [put, hclosed]) (h c false)

/-! ### Delivery -/

namespace Mult

variable {m m' : Mult V} {j : ℕ} {t : Tap V}

/-- The values of which the tap at `j` has had its turn. -/
def offered (m : Mult V) (j : ℕ) : List (Option V) :=
  match m.point with
  | .taking => m.taken
  | .putting _ i => if i ≤ j then m.taken.dropLast else m.taken

/-- A put into the tap will not be refused: its channel is open, or was so when
the call that the coroutine is in was made. -/
def Live (m : Mult V) (j : ℕ) (t : Tap V) : Prop :=
  (m.chan t.ch).closed = false ∨ ∃ v, m.point = .putting v j ∧ m.resumed = true

variable {v : Option V} {i : ℕ}

theorem live_of_put (hpoint : m.point = .putting v i)
    (hput : ∀ c sched, (m.chan t.ch).put m.resumed v ≠ some (false, c, sched)) : m.Live i t :=
  (Channel.open_of_put hput).imp_right fun hresumed => ⟨v, hpoint, hresumed⟩

/-- The tap has got the values offered to it, up to its closing. -/
structure Served (m : Mult V) (j : ℕ) (t : Tap V) : Prop where
  start_le : t.start ≤ (m.offered j).length
  isPrefix : t.delivered <+: (m.offered j).drop t.start
  complete : m.Live j t → t.delivered = (m.offered j).drop t.start

/-- The coroutine is at an existing tap with the value taken last, and all taps
are served. -/
structure Delivers (m : Mult V) : Prop where
  point : ∀ v i, m.point = .putting v i → i < m.taps.length ∧ m.taken.getLast? = some v
  served : ∀ j t, m.taps[j]? = some t → m.Served j t

theorem delivers_new (source : ChanId) (chan : ChanId → Channel V) :
    (new source chan).Delivers where
  point _ _ h := by cases h
  served _ _ h := by simp [new] at h

theorem Served.congr (h : m.Served j t) (hoffered : m'.offered j = m.offered j)
    (hlive : m'.Live j t → m.Live j t) : m'.Served j t where
  start_le := hoffered ▸ h.start_le
  isPrefix := hoffered ▸ h.isPrefix
  complete hl := hoffered ▸ h.complete (hlive hl)

/-- The tap has had its turn, and has got the value. -/
theorem Served.deliver (h : m.Served j t) (hoffered : m'.offered j = m.offered j ++ [v])
    (hlive : m.Live j t) : m'.Served j { t with delivered := t.delivered ++ [v] } := by
  have hdelivered : t.delivered ++ [v] = (m'.offered j).drop t.start := by
    rw [hoffered, drop_append_of_le_length h.start_le, h.complete hlive]
  refine ⟨?_, hdelivered ▸ prefix_rfl, fun _ => hdelivered⟩
  rw [hoffered, length_append]
  exact h.start_le.trans (Nat.le_add_right _ _)

/-- The tap has had its turn, and its channel was closed. -/
theorem Served.refuse (h : m.Served j t) (hoffered : m'.offered j = m.offered j ++ [v])
    (hlive : ¬m'.Live j t) : m'.Served j t := by
  refine ⟨?_, ?_, fun hl => absurd hl hlive⟩
  · rw [hoffered, length_append]
    exact h.start_le.trans (Nat.le_add_right _ _)
  · rw [hoffered, drop_append_of_le_length h.start_le]
    exact h.isPrefix.trans (prefix_append _ _)

/-- What happens to the channels does not matter, as long as they stay closed. -/
theorem Delivers.store (h : m.Delivers) (ch : ChanId) {c : Channel V}
    (hclosed : (m.chan ch).closed = true → c.closed = true) : (m.store ch c).Delivers where
  point := h.point
  served j t ht := by
    refine (h.served j t ht).congr rfl fun hlive => ?_
    rcases hlive with hopen | hcall
    · left
      by_cases hch : t.ch = ch
      · subst hch
        simp only [Mult.store, Function.update_self] at hopen
        exact Bool.eq_false_iff.mpr fun hc => by simp [hclosed hc] at hopen
      · simpa only [Mult.store, Function.update_of_ne hch] using hopen
    · exact .inr hcall

theorem Delivers.yield (h : m.Delivers)
    (hcall : ∀ v i t, m.point = .putting v i → m.taps[i]? = some t → m.Live i t) :
    m.yield.Delivers where
  point := h.point
  served j t ht := by
    refine (h.served j t ht).congr rfl fun hlive => ?_
    rcases hlive with hopen | ⟨v, hpoint, -⟩
    · exact .inl hopen
    · exact hcall v j t hpoint ht

theorem Delivers.length_offered (h : m.Delivers) (hj : m.taps.length ≤ j) :
    (m.offered j).length = m.start := by
  rw [offered, start]
  cases hpoint : m.point with
  | taking => rfl
  | putting v i =>
    have hi := (h.point v i hpoint).1
    simp [show i ≤ j by omega]

theorem Delivers.tap (h : m.Delivers) (ch : ChanId) : (m.tap ch).Delivers where
  point v i hpoint := by
    obtain ⟨hi, hlast⟩ := h.point v i hpoint
    refine ⟨?_, hlast⟩
    simp only [Mult.tap, length_append, length_singleton]
    omega
  served j t ht := by
    rcases Nat.lt_or_ge j m.taps.length with hj | hj
    · have ht' : m.taps[j]? = some t := by
        rwa [Mult.tap, getElem?_append_left hj] at ht
      exact (h.served j t ht').congr rfl id
    · -- the new tap: nothing has been offered to it yet
      rw [Mult.tap, getElem?_append_right hj] at ht
      obtain ⟨-, rfl⟩ := List.getElem?_eq_some_iff.mp ht
      rw [getElem_singleton]
      have hstart : ((m.tap ch).offered j).length = m.start := h.length_offered hj
      refine ⟨hstart.ge, nil_prefix, fun _ => ?_⟩
      rw [drop_of_length_le hstart.le]

/-! ### The loop over the taps -/

theorem loop_point {w : Option V} {k : ℕ} (h : (m.loop v i).point = .putting w k) :
    k < m.taps.length ∧ w = v := by
  simp only [loop] at h
  split at h
  · rename_i hi
    cases h
    exact ⟨hi, rfl⟩
  · cases h

/-- Between two calls a tap is live only if its channel is open. -/
theorem Live.of_loop (h : (m.loop v i).Live j t) : (m.chan t.ch).closed = false := by
  rcases h with hopen | ⟨-, -, hresumed⟩
  · exact hopen
  · cases hresumed

theorem offered_loop_zero (hj : j < m.taps.length) :
    ({ m with taken := m.taken ++ [v] }.loop v 0).offered j = m.taken := by
  have hpos : 0 < m.taps.length := by omega
  simp [offered, loop, hpos]

/-- After the turn of the tap at `i` the others have been offered what they were
offered before. -/
theorem offered_loop_of_ne (hpoint : m.point = .putting v i) (hj : j < m.taps.length)
    (hne : j ≠ i) : (m.loop v (i + 1)).offered j = m.offered j := by
  rw [offered, offered, hpoint, loop]
  by_cases hi : i + 1 < m.taps.length
  · simp only [hi, if_true]
    by_cases hij : i ≤ j
    · rw [if_pos hij, if_pos (by omega)]
    · rw [if_neg hij, if_neg (by omega)]
  · simp only [hi, if_false]
    rw [if_neg (by omega)]

section

variable (h : m.Delivers)
include h

/-- The tap at `i` has been offered one value more. -/
theorem Delivers.offered_loop_self (hpoint : m.point = .putting v i) :
    (m.loop v (i + 1)).offered i = m.offered i ++ [v] := by
  have hlast := (h.point v i hpoint).2
  have hbefore : m.offered i = m.taken.dropLast := by simp [offered, hpoint]
  have hafter : (m.loop v (i + 1)).offered i = m.taken := by
    rw [offered, loop]
    split
    · rfl
    · rename_i hputting
      split at hputting
      · cases hputting
        exact if_neg (by omega)
      · cases hputting
  rw [hbefore, hafter]
  exact (dropLast_append_getLast? v hlast).symm

theorem Delivers.take (hpoint : m.point = .taking) (v : Option V) :
    ({ m with taken := m.taken ++ [v] }.loop v 0).Delivers where
  point w k hk := by
    obtain ⟨hlt, rfl⟩ := loop_point hk
    exact ⟨hlt, getLast?_concat⟩
  served j t ht := by
    have hj : j < m.taps.length := (List.getElem?_eq_some_iff.mp ht).1
    refine (h.served j t ht).congr ?_ fun hlive => .inl hlive.of_loop
    rw [offered_loop_zero hj, offered, hpoint]

theorem Delivers.refuse (hpoint : m.point = .putting v i) (hi : m.taps[i]? = some t)
    (hclosed : (m.chan t.ch).closed = true) :
    (m.loop v (i + 1)).Delivers where
  point w k hk := by
    obtain ⟨hlt, rfl⟩ := loop_point hk
    exact ⟨hlt, (h.point w i hpoint).2⟩
  served j u hu := by
    by_cases hji : j = i
    · subst hji
      cases hi.symm.trans hu
      refine (h.served j t hi).refuse (h.offered_loop_self hpoint) fun hlive => ?_
      rw [hlive.of_loop] at hclosed
      cases hclosed
    · have hj : j < m.taps.length := (List.getElem?_eq_some_iff.mp hu).1
      exact (h.served j u hu).congr (offered_loop_of_ne hpoint hj hji)
        fun hlive => .inl hlive.of_loop

theorem Delivers.deliver (hpoint : m.point = .putting v i) (hi : m.taps[i]? = some t)
    (hlive : m.Live i t) :
    ((m.deliver i t v).loop v (i + 1)).Delivers where
  point w k hk := by
    obtain ⟨hlt, rfl⟩ := loop_point hk
    exact ⟨hlt, (h.point w i hpoint).2⟩
  served j u hu := by
    -- the loop looks only at the number of taps
    have hoffered :
        ((m.deliver i t v).loop v (i + 1)).offered j = (m.loop v (i + 1)).offered j := by
      simp [offered, loop, Mult.deliver]
    have hset : (m.taps.set i { t with delivered := t.delivered ++ [v] })[j]? = some u := hu
    by_cases hji : j = i
    · subst hji
      have hj := (List.getElem?_eq_some_iff.mp hi).1
      rw [getElem?_set_self hj] at hset
      cases hset
      exact (h.served j t hi).deliver (hoffered.trans (h.offered_loop_self hpoint)) hlive
    · rw [getElem?_set_ne (Ne.symm hji)] at hset
      have hj := (List.getElem?_eq_some_iff.mp hset).1
      exact (h.served j u hset).congr (hoffered.trans (offered_loop_of_ne hpoint hj hji))
        fun hl => .inl hl.of_loop

/-! ### Runs -/

theorem Delivers.resume (hstep : m.resume = some m') : m'.Delivers := by
  rw [Mult.resume] at hstep
  split at hstep
  · rename_i hpoint
    split at hstep
    · cases hstep
      refine h.yield fun v i t hputting => ?_
      cases hpoint.symm.trans hputting
    · rename_i v c sched htake
      cases hstep
      exact (h.take hpoint v).store m.source
        fun hclosed => (Channel.take_closed htake).trans hclosed
  · rename_i v i hpoint
    split at hstep
    · cases hstep
    · rename_i t hi
      split at hstep
      · rename_i hput
        cases hstep
        refine h.yield fun w k u hputting hu => ?_
        cases hpoint.symm.trans hputting
        cases hi.symm.trans hu
        exact live_of_put hpoint (by simp [hput])
      · rename_i c sched hput
        cases hstep
        have hlive : m.Live i t := live_of_put hpoint (by simp [hput])
        exact (h.deliver hpoint hi hlive).store t.ch
          fun hclosed => (Channel.put_closed hput).trans hclosed
      · rename_i c sched hput
        cases hstep
        exact (h.refuse hpoint hi (Channel.closed_of_put_false hput)).store t.ch
          fun hclosed => (Channel.put_closed hput).trans hclosed

theorem Delivers.step {e : MultEvent V} (hstep : m.step e = some m') : m'.Delivers := by
  cases e with
  | resume => exact h.resume hstep
  | tap ch =>
    cases hstep
    exact h.tap ch
  | put ch v resumed =>
    obtain ⟨⟨r, c, sched⟩, hput, rfl⟩ := map_eq_some_iff.mp hstep
    exact h.store ch fun hclosed => (Channel.put_closed hput).trans hclosed
  | take ch resumed =>
    obtain ⟨⟨v, c, sched⟩, htake, rfl⟩ := map_eq_some_iff.mp hstep
    exact h.store ch fun hclosed => (Channel.take_closed htake).trans hclosed
  | close ch =>
    cases hstep
    exact h.store ch fun _ => rfl

end

theorem delivers_of_reachable {source : ChanId} {chan : ChanId → Channel V}
    (hm : (mult source chan).Reachable m) : m.Delivers :=
  hm.invariant (delivers_new source chan) fun _ _ _ h hstep => h.step hstep

/-- The tap has got the values taken since its start, each once and in order.
While its channel is open only the value being handed out may be missing. -/
structure Receives (m : Mult V) (t : Tap V) : Prop where
  inOrder : t.delivered <+: m.taken.drop t.start
  oneBehind : (m.chan t.ch).closed = false →
    m.taken.length ≤ t.start + t.delivered.length + 1
  complete : (m.chan t.ch).closed = false → m.point = .taking →
    t.delivered = m.taken.drop t.start

theorem offered_isPrefix (m : Mult V) (j : ℕ) : m.offered j <+: m.taken := by
  rw [offered]
  split
  · exact prefix_rfl
  · split
    · exact dropLast_prefix _
    · exact prefix_rfl

theorem length_le_offered (m : Mult V) (j : ℕ) : m.taken.length ≤ (m.offered j).length + 1 := by
  rw [offered]
  split
  · exact Nat.le_succ _
  · split
    · rw [length_dropLast]
      omega
    · exact Nat.le_succ _

theorem Served.receives (h : m.Served j t) : m.Receives t where
  inOrder := h.isPrefix.trans ((m.offered_isPrefix j).drop t.start)
  oneBehind hopen := by
    have hle := m.length_le_offered j
    rw [h.complete (.inl hopen), length_drop]
    omega
  complete hopen hpoint := by
    rw [h.complete (.inl hopen), offered, hpoint]

theorem receives_of_reachable {source : ChanId} {chan : ChanId → Channel V}
    (hm : (mult source chan).Reachable m) (ht : t ∈ m.taps) : m.Receives t := by
  obtain ⟨j, hj⟩ := mem_iff_getElem?.mp ht
  exact ((delivers_of_reachable hm).served j t hj).receives

/-- Of the values taken since the start of the later tap, one of the two taps
has got an initial part of what the other has got. -/
theorem Receives.comparable {a b : Tap V} (ha : m.Receives a) (hb : m.Receives b)
    (hstart : a.start ≤ b.start) :
    a.delivered.drop (b.start - a.start) <+: b.delivered ∨
      b.delivered <+: a.delivered.drop (b.start - a.start) := by
  have hdrop : a.delivered.drop (b.start - a.start) <+: m.taken.drop b.start := by
    have hprefix := ha.inOrder.drop (b.start - a.start)
    rwa [drop_drop, Nat.add_sub_cancel' hstart] at hprefix
  exact prefix_or_prefix_of_prefix hdrop hb.inOrder

end Mult

/-- Channels and taps. As long as no `nil` is put, a `Buffer` counts its values,
keeps to its size and gives them out in the order in which they were put, and a
`SlidingBuffer` has the latest of the values put after the one taken last. A tap
gets the values from its start on, and two taps agree on the values taken since
the start of the later one. -/
theorem channel_and_tap_order {K V W : Type} (code : K → Op K V) (tick : V)
    (s : State K V × (ChanId → QueueLog V))
    (hs : (traced code tick).ReachableUnder (NonNil code tick) s)
    (source : ChanId) (chan : ChanId → Channel W) (m : Mult W)
    (hm : (mult source chan).Reachable m) :
    (∀ ch, (s.1.chan ch).buffer.kind = .standard →
      (s.1.chan ch).buffer.count = (s.1.chan ch).buffer.vals.length ∧
      (∀ n : ℕ, (s.1.chan ch).buffer.size = some (n : ℤ) → (s.1.chan ch).buffer.count ≤ n) ∧
      (s.2 ch).taken <+: (s.2 ch).put) ∧
    (∀ ch, (s.1.chan ch).buffer.kind = .sliding → ∀ n : ℕ, 1 ≤ n →
      (s.1.chan ch).buffer.size = some (n : ℤ) →
      (s.1.chan ch).buffer.vals = (s.2 ch).since.rtake n ∧
      ((s.2 ch).put.take (s.2 ch).gone).getLast? = (s.2 ch).taken.getLast?) ∧
    (∀ t ∈ m.taps, m.Receives t) ∧
    ∀ a ∈ m.taps, ∀ b ∈ m.taps, a.start ≤ b.start →
      a.delivered.drop (b.start - a.start) <+: b.delivered ∨
        b.delivered <+: a.delivered.drop (b.start - a.start) := by
  refine ⟨fun ch hkind => ?_, fun ch hkind n hn hsize => ?_, fun t ht => ?_, ?_⟩
  · have hq := (traced_carries hs ch).queues hkind
    exact ⟨hq.count_eq, hq.count_le, _, hq.fifo⟩
  · have hl := ((traced_carries hs ch).slides hkind n hn hsize).latest
    exact ⟨hl.stored_eq, hl.getLast_gone⟩
  · exact Mult.receives_of_reachable hm ht
  · intro a ha b hb hstart
    exact (Mult.receives_of_reachable hm ha).comparable (Mult.receives_of_reachable hm hb) hstart

/-- A coroutine that puts two values into channel 0 and takes one of them. -/
def relay : ℕ → Op ℕ ℕ
  | 0 => .put 0 (some 7) fun _ => 1
  | 1 => .put 0 (some 8) fun _ => 2
  | 2 => .take 0 fun _ => 3
  | _ => .done 0

/-- Channel 0 is a `Buffer(2)` and channel 1 a `SlidingBuffer(1)`, into which the
main thread puts two values. -/
def relayed : List (Event ℕ ℕ) :=
  [.newChannel .standard (some 2), .newChannel .sliding (some 1), .go 0,
    .put 1 (some 5), .put 1 (some 6), .run, .resume, .resume, .resume]

/-- A `Mult` with one tap hands out 7, and with a second one 8. -/
def tappedLate : List (MultEvent ℕ) :=
  [.tap 1, .put 0 (some 7) false, .resume, .resume, .tap 2, .put 0 (some 8) false,
    .resume, .resume, .resume]

theorem channel_and_tap_order_relayed :
    ∃ s m, (traced relay 0).ReachableUnder (NonNil relay 0) s ∧
      (mult 0 fun _ => (.new .standard (some 2) : Channel ℕ)).Reachable m ∧
      (s.2 0).taken = [7] ∧ (s.2 0).taken <+: (s.2 0).put ∧
      (s.1.chan 1).buffer.vals = [6] ∧ (s.1.chan 1).buffer.vals = (s.2 1).since.rtake 1 ∧
      m.taps.length = 2 ∧ ∀ t ∈ m.taps, m.Receives t := by
  obtain ⟨s, -, hs, htest⟩ := System.exists_reachableUnder (traced relay 0) (NonNil relay 0) relayed
    (fun s => (s.2 0).taken = [7] ∧ (s.1.chan 1).buffer.vals = [6] ∧
      (s.1.chan 0).buffer.kind = .standard ∧ (s.1.chan 1).buffer.kind = .sliding ∧
      (s.1.chan 1).buffer.size = some 1) (by decide +kernel) (by decide +kernel)
  obtain ⟨m, hm, hlength⟩ := System.exists_reachable
    (mult 0 fun _ => (.new .standard (some 2) : Channel ℕ)) tappedLate
    (fun m => m.taps.length = 2) (by decide +kernel)
  obtain ⟨htaken, hvals, hkind, hsliding, hsize⟩ := htest
  obtain ⟨hqueues, hslides, hreceives, -⟩ := channel_and_tap_order relay 0 s hs 0 _ m hm
  exact ⟨s, m, hs, hm, htaken, (hqueues 0 hkind).2.2, hvals,
    (hslides 1 hsliding 1 le_rfl hsize).1, hlength, hreceives⟩

/-- Two taps over blocking buffers that were added at different times: neither
has got an initial part of what the other has got. -/
theorem taps_not_comparable :
    ∃ m, (mult 0 fun _ => (.new .standard (some 2) : Channel ℕ)).Reachable m ∧
      ∃ a ∈ m.taps, ∃ b ∈ m.taps,
        (m.chan a.ch).buffer.kind = .standard ∧ (m.chan b.ch).buffer.kind = .standard ∧
        a.delivered = [some 7, some 8] ∧ b.delivered = [some 8] ∧
        ¬a.delivered <+: b.delivered ∧ ¬b.delivered <+: a.delivered := by
  obtain ⟨m, hm, a, ha, b, hb, hka, hkb, hda, hdb⟩ := System.exists_reachable
    (mult 0 fun _ => (.new .standard (some 2) : Channel ℕ)) tappedLate
    (fun m => ∃ a ∈ m.taps, ∃ b ∈ m.taps,
      (m.chan a.ch).buffer.kind = .standard ∧ (m.chan b.ch).buffer.kind = .standard ∧
        a.delivered = [some 7, some 8] ∧ b.delivered = [some 8]) (by decide +kernel)
  refine ⟨m, hm, a, ha, b, hb, hka, hkb, hda, hdb, ?_, ?_⟩
  · rw [hda, hdb]
    decide
  · rw [hda, hdb]
    decide

end BeepMusic.Async
