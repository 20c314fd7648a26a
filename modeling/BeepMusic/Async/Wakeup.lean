import BeepMusic.Async.Scheduler

/-!
Wakeups. `run` clears `next_run` only after the pass, so what a coroutine does
for one that the pass has already gone by schedules nothing. Nothing is lost as
long as no coroutine serves an earlier one within a pass.
-/

namespace BeepMusic.Async

open Lib List

section

variable {K V : Type} (code : K → Op K V)

/-- The channels a coroutine suspended at this point waits on for a value. -/
def valuesAwaited (t : Thread K) : List ChanId :=
  match code t.cont with
  | .take ch _ => [ch]
  | .alts takes _ _ => takes.getD []
  | _ => []

/-- The channels it waits on for room. -/
def roomAwaited (t : Thread K) : List ChanId :=
  match code t.cont with
  | .done _ => [t.result]
  | .put ch _ _ => [ch]
  | _ => []

/-- The channels its next action takes a value from. -/
def takenFrom (t : Thread K) : List ChanId :=
  match code t.cont with
  | .take ch _ => [ch]
  | .takeAsync ch _ => [ch]
  | _ => []

/-- The wait condition of the call a coroutine is suspended in holds. -/
def WaitOver (chan : ChanId → Channel V) (t : Thread K) : Prop :=
  (∃ ch ∈ valuesAwaited code t, (chan ch).HasValue) ∨
    ∃ ch ∈ roomAwaited code t, (chan ch).HasRoom
deriving Decidable

/-- While `run` is not executing, a coroutine that could go on has a run
scheduled for it. -/
def NoLostWakeup (s : State K V) : Prop :=
  s.pass = none → ∀ t ∈ s.threads, t.status = .suspended → WaitOver code s.chan t →
    s.nextRun = true
deriving Decidable

/-- The next action of a pass puts nothing where an earlier coroutine of the
thread list is suspended waiting for a value, and takes nothing from where an
earlier one is suspended waiting for room. -/
def ServesForward (s : State K V) : Event K V → Prop
  | .resume => ∀ i ∈ s.pass, ∀ t ∈ s.threads[i]?, ∀ t' ∈ s.threads.take i,
      t'.status = .suspended →
        (∀ ch ∈ roomAwaited code t, ch ∉ valuesAwaited code t') ∧
          ∀ ch ∈ takenFrom code t, ch ∉ roomAwaited code t'
  | _ => True

instance (s : State K V) (e : Event K V) : Decidable (ServesForward code s e) :=
  match e with
  | .resume => inferInstanceAs (Decidable (∀ i ∈ s.pass, _))
  | .run | .expire _ | .start | .put _ _ | .takeAsync _ | .close _ | .newChannel _ _
  | .timeout | .go _ => isTrue trivial

/-- No suspended coroutine of the list could go on. -/
def Quiet (chan : ChanId → Channel V) (ts : List (Thread K)) : Prop :=
  ∀ t ∈ ts, t.status = .suspended → ¬WaitOver code chan t

/-- Ids that are not handed out yet stand for unbounded channels. -/
def Unbounded (s : State K V) : Prop :=
  ∀ ch, s.fresh ≤ ch → (s.chan ch).buffer.size = none

/-- Coroutines that a pass has gone by are waiting, and between two passes all
of them are unless a run is scheduled. -/
structure Settled (s : State K V) : Prop where
  unbounded : Unbounded s
  passed : ∀ i, s.pass = some i → Quiet code s.chan (s.threads.take i)
  idle : s.pass = none → s.nextRun = false → Quiet code s.chan s.threads

section Channels

variable {code}

variable {chan : ChanId → Channel V} {ch : ChanId} {c : Channel V} {s : State K V}
  {ts : List (Thread K)}

theorem waitOver_update {t : Thread K}
    (hval : ch ∈ valuesAwaited code t → ¬(chan ch).HasValue → ¬c.HasValue)
    (hroom : ch ∈ roomAwaited code t → ¬(chan ch).HasRoom → ¬c.HasRoom)
    (h : ¬WaitOver code chan t) : ¬WaitOver code (Function.update chan ch c) t := by
  simp only [WaitOver, not_or, not_exists, not_and] at h ⊢
  refine ⟨?_, ?_⟩
  · intro ch' hmem
    rcases eq_or_ne ch' ch with rfl | hne
    · simpa using hval hmem (h.1 ch' hmem)
    · simpa [hne] using h.1 ch' hmem
  · intro ch' hmem
    rcases eq_or_ne ch' ch with rfl | hne
    · simpa using hroom hmem (h.2 ch' hmem)
    · simpa [hne] using h.2 ch' hmem

theorem Quiet.store {sched : Bool} (h : Quiet code s.chan ts)
    (hval : ∀ t ∈ ts, t.status = .suspended → ch ∈ valuesAwaited code t →
      ¬(s.chan ch).HasValue → ¬c.HasValue)
    (hroom : ∀ t ∈ ts, t.status = .suspended → ch ∈ roomAwaited code t →
      ¬(s.chan ch).HasRoom → ¬c.HasRoom) : Quiet code (s.store ch c sched).chan ts :=
  fun t ht hsus => waitOver_update (hval t ht hsus) (hroom t ht hsus) (h t ht hsus)

/-- A new channel has no value, and nobody waited for room under its id. -/
theorem Quiet.create {kind : BufferKind} {size : Option ℤ} (h : Quiet code s.chan ts)
    (hs : Unbounded s) : Quiet code (s.create kind size).chan ts := by
  intro t ht hsus
  refine waitOver_update ?_ ?_ (h t ht hsus)
  · simp [Channel.HasValue, Channel.new, Buffer.new]
  · intro _ hroom
    refine absurd ?_ hroom
    intro n hn
    rw [hs s.fresh le_rfl] at hn
    cases hn

theorem Quiet.mono {us : List (Thread K)} (h : Quiet code chan us)
    (hsub : ∀ t ∈ ts, t.status = .suspended → t ∈ us) : Quiet code chan ts :=
  fun t ht hsus => h t (hsub t ht hsus) hsus

theorem Quiet.append {t : Thread K} (h : Quiet code chan ts)
    (ht : t.status = .suspended → ¬WaitOver code chan t) : Quiet code chan (ts ++ [t]) := by
  intro u hu hsus
  rcases mem_append.mp hu with hu | hu
  · exact h u hu hsus
  · obtain rfl := mem_singleton.mp hu
    exact ht hsus

theorem Unbounded.store {sched : Bool} (h : Unbounded s)
    (hsize : c.buffer.size = (s.chan ch).buffer.size) : Unbounded (s.store ch c sched) := by
  intro ch' hle
  rcases eq_or_ne ch' ch with rfl | hne
  · simpa [State.store, hsize] using h ch' hle
  · simpa [State.store, hne] using h ch' hle

theorem Unbounded.create {kind : BufferKind} {size : Option ℤ} (h : Unbounded s) :
    Unbounded (s.create kind size) := by
  intro ch' hle
  have hlt : s.fresh < ch' := hle
  have hne : ch' ≠ s.fresh := Nat.ne_of_gt hlt
  simpa [State.create, hne] using h ch' (Nat.le_of_lt hlt)

end Channels

section Steps

variable {code} {s : State K V} {i : ℕ} {t : Thread K}

theorem settled_init : Settled code (State.init : State K V) where
  unbounded := fun _ _ => rfl
  passed := nofun
  idle := fun _ _ => by simp [Quiet, State.init]

variable {ch : ChanId} {c : Channel V} {sched : Bool}

/-- What an action within a pass may do to a channel. -/
theorem Settled.store (h : Settled code s) (hpass : s.pass = some i)
    (hsize : c.buffer.size = (s.chan ch).buffer.size)
    (hval : ∀ t ∈ s.threads.take i, t.status = .suspended → ch ∈ valuesAwaited code t →
      ¬(s.chan ch).HasValue → ¬c.HasValue)
    (hroom : ∀ t ∈ s.threads.take i, t.status = .suspended → ch ∈ roomAwaited code t →
      ¬(s.chan ch).HasRoom → ¬c.HasRoom) :
    Settled code (s.store ch c sched) where
  unbounded := h.unbounded.store hsize
  passed := by
    intro j hj
    obtain rfl : i = j := Option.some.inj (hpass.symm.trans hj)
    exact (h.passed i hpass).store hval hroom
  idle := fun hnone => by
    rw [show (s.store ch c sched).pass = some i from hpass] at hnone
    cases hnone

theorem Settled.create (h : Settled code s) (kind : BufferKind) (size : Option ℤ) :
    Settled code (s.create kind size) where
  unbounded := h.unbounded.create
  passed := fun j hj => (h.passed j hj).create h.unbounded
  idle := fun hnone hrun => (h.idle hnone hrun).create h.unbounded

theorem Settled.startTimer (h : Settled code s) : Settled code s.startTimer :=
  ⟨(h.create _ _).unbounded, (h.create _ _).passed, (h.create _ _).idle⟩

theorem Settled.go (h : Settled code s) (child : K) : Settled code (s.go child) where
  unbounded := (h.create _ _).unbounded
  passed := by
    intro j hj
    refine ((h.create .standard (some 1)).passed j hj).mono ?_
    intro u hu hsus
    -- the new coroutine is not suspended, wherever the pass is
    simp only [State.go, take_append, mem_append] at hu
    rcases hu with hu | hu
    · exact hu
    · obtain rfl := mem_singleton.mp (mem_of_mem_take hu)
      cases hsus
  idle := by
    intro hnone hrun
    refine ((h.create .standard (some 1)).idle hnone hrun).append ?_
    intro hsus
    cases hsus

theorem take_set_succ (hi : s.threads[i]? = some t) (u : Thread K) :
    (s.threads.set i u).take (i + 1) = s.threads.take i ++ [u] := by
  have hlt : i < s.threads.length := (List.getElem?_eq_some_iff.mp hi).1
  rw [take_add_one, take_set_of_le le_rfl]
  simp [hlt]

variable (h : Settled code s)
include h

theorem Settled.advance (hpass : s.pass = some i) (k : K) :
    Settled code (s.advance i t k) where
  unbounded := h.unbounded
  passed := by
    intro j hj
    obtain rfl : i = j := Option.some.inj (hpass.symm.trans hj)
    simpa [State.advance, take_set_of_le] using h.passed i hpass
  idle := fun hnone => by
    rw [show (s.advance i t k).pass = some i from hpass] at hnone
    cases hnone

/-- The coroutine at `i` leaves the pass suspended or dead. -/
theorem Settled.leave (hpass : s.pass = some i) {u v : Thread K} (hi : s.threads[i]? = some v)
    (hu : u.status = .suspended → ¬WaitOver code s.chan u) :
    Settled code { s with threads := s.threads.set i u, pass := some (i + 1) } where
  unbounded := h.unbounded
  passed := by
    intro j hj
    obtain rfl : i + 1 = j := Option.some.inj hj
    rw [take_set_succ hi]
    exact (h.passed i hpass).append hu
  idle := nofun

theorem Settled.exit : Settled code s.exit :=
  { h with }

/-- A put within a pass, by a coroutine that waits for room if it has to. -/
theorem Settled.put (hpass : s.pass = some i) (hok : ServesForward code s .resume)
    (hi : s.threads[i]? = some t) (hch : ch ∈ roomAwaited code t) {resumed r : Bool}
    {v : Option V} (hput : (s.chan ch).put resumed v = some (r, c, sched)) :
    Settled code (s.store ch c sched) := by
  refine h.store hpass (Channel.put_size hput) ?_ ?_
  · intro u hu hsus hmem
    exact absurd hmem ((hok i hpass t hi u hu hsus).1 ch hch)
  · intro u _ _ _ hroom
    exact Channel.not_hasRoom_put hput hroom

theorem Settled.take (hpass : s.pass = some i) (hok : ServesForward code s .resume)
    (hi : s.threads[i]? = some t) (hch : ch ∈ takenFrom code t) {resumed : Bool} {v : Option V}
    (htake : (s.chan ch).take resumed = some (v, c, sched)) :
    Settled code (s.store ch c sched) := by
  refine h.store hpass (Channel.take_size htake) ?_ ?_
  · intro u _ _ _ hval
    exact Channel.not_hasValue_take htake hval
  · intro u hu hsus hmem
    exact absurd hmem ((hok i hpass t hi u hu hsus).2 ch hch)

theorem Settled.store_self (hc : c.buffer = (s.chan ch).buffer) :
    Settled code (s.store ch c false) where
  unbounded := h.unbounded.store (by rw [hc])
  passed := fun j hj => (h.passed j hj).store
    (fun _ _ _ _ => by simp [Channel.HasValue, hc])
    (fun _ _ _ _ => by simp [Channel.HasRoom, hc])
  idle := fun hnone hrun => (h.idle hnone (by simpa [State.store] using hrun)).store
    (fun _ _ _ _ => by simp [Channel.HasValue, hc])
    (fun _ _ _ _ => by simp [Channel.HasRoom, hc])

theorem Settled.close (ch : ChanId) : Settled code (s.close ch) :=
  h.store_self rfl

/-- Between two passes, a call either schedules a run or does nothing. -/
theorem Settled.store_idle (hpass : s.pass = none)
    (hsize : c.buffer.size = (s.chan ch).buffer.size) (hself : sched = false → c = s.chan ch) :
    Settled code (s.store ch c sched) := by
  cases sched with
  | false => exact h.store_self (by rw [hself rfl])
  | true =>
    refine ⟨h.unbounded.store hsize, ?_, ?_⟩
    · intro j hj
      cases hpass.symm.trans hj
    · intro _ hrun
      simp [State.store] at hrun

theorem Settled.takeAsync_pass (hpass : s.pass = some i) (hok : ServesForward code s .resume)
    (hi : s.threads[i]? = some t) (hch : ch ∈ takenFrom code t) :
    Settled code (s.takeAsync ch) := by
  cases htake : (s.chan ch).take false with
  | none => simpa [State.takeAsync, Channel.takeAsync, htake] using h.store_self rfl
  | some r => simpa [State.takeAsync, Channel.takeAsync, htake] using h.take hpass hok hi hch htake

theorem Settled.takeAsync_idle (hpass : s.pass = none) (ch : ChanId) :
    Settled code (s.takeAsync ch) := by
  cases htake : (s.chan ch).take false with
  | none => simpa [State.takeAsync, Channel.takeAsync, htake] using h.store_self rfl
  | some r =>
    obtain ⟨v, c, sched⟩ := r
    simp only [State.takeAsync, Channel.takeAsync, htake, Option.getD_some]
    refine h.store_idle hpass (Channel.take_size htake) ?_
    rintro rfl
    exact Channel.take_eq_self htake

theorem Settled.mainPut (hpass : s.pass = none) (ch : ChanId) (v : Option V) :
    Settled code (s.mainPut ch v) := by
  simp only [State.mainPut]
  split
  · exact h
  · split
    · exact h.exit
    · split
      · exact h
      · next r c sched hput =>
          refine h.store_idle hpass (Channel.put_size hput) ?_
          rintro rfl
          exact Channel.put_eq_self hput

/-- An action of the pass keeps everything behind it quiet: whoever yields
waits for something that is not there. -/
theorem settled_exec (hpass : s.pass = some i) (hok : ServesForward code s .resume)
    (hi : s.threads[i]? = some t) : Settled code (exec code s i t) := by
  rw [exec]
  cases hcode : code t.cont with
  | fail => exact h.exit
  | done v =>
    dsimp only
    split
    · next hput =>
        refine h.leave hpass hi fun _ => ?_
        simpa [WaitOver, valuesAwaited, roomAwaited, hcode] using
          Channel.not_hasRoom_of_put hput
    · next r c sched hput =>
        refine (h.put hpass hok hi (by simp [roomAwaited, hcode]) hput).leave hpass hi ?_
        intro hsus
        cases hsus
  | put ch v next =>
    dsimp only
    split
    · next hput =>
        refine h.leave hpass hi fun _ => ?_
        simpa [WaitOver, valuesAwaited, roomAwaited, hcode] using
          Channel.not_hasRoom_of_put hput
    · next r c sched hput =>
        exact (h.put hpass hok hi (by simp [roomAwaited, hcode]) hput).advance hpass _
  | take ch next =>
    dsimp only
    split
    · next htake =>
        refine h.leave hpass hi fun _ => ?_
        simpa [WaitOver, valuesAwaited, roomAwaited, hcode] using
          Channel.not_hasValue_of_take htake
    · next v c sched htake =>
        exact (h.take hpass hok hi (by simp [takenFrom, hcode]) htake).advance hpass _
  | takeAsync ch next =>
    exact (h.takeAsync_pass hpass hok hi (by simp [takenFrom, hcode])).advance hpass _
  | alts takes puts next =>
    dsimp only
    split
    · exact h.exit
    · split
      · exact h.advance hpass _
      · next hfind =>
          split
          · refine h.leave hpass hi fun _ => ?_
            simpa [WaitOver, valuesAwaited, roomAwaited, hcode, State.firstReady] using hfind
          · exact h.exit
  | close ch next => exact (h.close ch).advance hpass _
  | newChannel kind size next => exact (h.create kind size).advance hpass _
  | timeout next => exact h.startTimer.advance hpass _
  | go child next => exact (h.go child).advance hpass _

theorem settled_callback {tick : V} {s' : State K V} {e : Event K V} (hpass : s.pass = none)
    (hs : callback tick s e = some s') : Settled code s' := by
  cases e with
  | resume => cases hs
  | run =>
    simp only [callback] at hs
    split at hs
    · cases hs
      refine ⟨h.unbounded, ?_, ?_⟩
      · simp [Quiet]
      · exact nofun
    · cases hs
  | expire n =>
    simp only [callback] at hs
    split at hs
    · cases hs
    · cases hs
      apply Settled.mainPut
      · exact { h with }
      · exact hpass
  | start =>
    cases hs
    refine ⟨h.unbounded, h.passed, ?_⟩
    intro _ hrun
    cases hrun
  | put ch v =>
    cases hs
    exact h.mainPut hpass ch v
  | takeAsync ch =>
    cases hs
    exact h.takeAsync_idle hpass ch
  | close ch =>
    cases hs
    exact h.close ch
  | newChannel kind size =>
    cases hs
    exact h.create kind size
  | timeout =>
    cases hs
    exact h.startTimer
  | go child =>
    cases hs
    exact h.go child

theorem Settled.endRun (hpass : s.pass = some i) (hi : s.threads[i]? = none) :
    Settled code s.endRun where
  unbounded := h.unbounded
  passed := nofun
  idle := by
    intro _ _
    have hlen : s.threads.length ≤ i := List.getElem?_eq_none_iff.mp hi
    have hquiet := h.passed i hpass
    rw [take_of_length_le hlen] at hquiet
    exact hquiet.mono fun t ht _ => (mem_filter.mp ht).1

theorem settled_step {tick : V} {s' : State K V} {e : Event K V} (hok : ServesForward code s e)
    (hs : step code tick s e = some s') : Settled code s' := by
  obtain ⟨-, hs⟩ := Option.ite_none_left_eq_some.mp hs
  split at hs
  · next hpass => exact settled_callback h hpass hs
  · next i hpass =>
      split at hs
      · split at hs
        · next hi =>
            cases hs
            exact h.endRun hpass hi
        · next t hi =>
            cases hs
            exact settled_exec h hpass hok hi
      · cases hs

end Steps

/-- No wakeup is lost in a run whose passes only serve forward. -/
theorem noLostWakeup_of_servesForward (tick : V) (s : State K V)
    (h : (scheduler code tick).ReachableUnder (ServesForward code) s) :
    NoLostWakeup code s := by
  have hsettled : Settled code s :=
    h.invariant settled_init fun _ _ _ hI hok hs => settled_step hI hok hs
  intro hpass t ht hsus hover
  cases hrun : s.nextRun with
  | true => rfl
  | false => exact absurd hover (hsettled.idle hpass hrun t ht hsus)

end

/-- Two coroutines and the channel `0`: one takes from it, one puts on it. -/
inductive Demo
  | consume
  | produce
  | stop
  deriving DecidableEq

def Demo.code : Demo → Op Demo Unit
  | .consume => .take 0 fun _ => .stop
  | .produce => .put 0 (some ()) fun _ => .stop
  | .stop => .done ()

/-- The consumer waits, a callback puts a value on the channel, and a run is
scheduled for it. -/
def Demo.served : List (Event Demo Unit) :=
  [.newChannel .sliding (some 1), .go .consume, .start, .run, .resume, .resume, .put 0 (some ())]

/-- The consumer is started before the producer, and one run goes over both. -/
def Demo.starved : List (Event Demo Unit) :=
  [.newChannel .standard (some 1), .go .consume, .go .produce, .start, .run,
    .resume, .resume, .resume, .resume]

theorem noLostWakeup_served :
    ∃ s, (scheduler Demo.code ()).runFrom .init Demo.served = some s ∧
      (∃ t ∈ s.threads, t.status = .suspended ∧ WaitOver Demo.code s.chan t) ∧
      NoLostWakeup Demo.code s := by
  refine ⟨_, rfl, by decide, noLostWakeup_of_servesForward Demo.code () _ ?_⟩
  exact System.ReachableUnder.runFrom Demo.served .init (by decide) rfl

/-- After the run the consumer is suspended in `take` on a channel with a
value, and no run is scheduled. -/
theorem starved_loses_wakeup :
    ∃ s, (scheduler Demo.code ()).Reachable s ∧ ¬NoLostWakeup Demo.code s := by
  refine ⟨_, System.Reachable.runFrom Demo.starved .init rfl, ?_⟩
  decide

end BeepMusic.Async
