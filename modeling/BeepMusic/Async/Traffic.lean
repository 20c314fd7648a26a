import BeepMusic.Async.Scheduler
import BeepMusic.Lib.Queue

/-!
What goes through the channels of the scheduler. Every event puts into, takes
from or makes at most one buffer; along a run a log is kept for each channel,
and the buffers are shown to be queues of that log: first in first out for a
`Buffer`, and the latest values for a `SlidingBuffer`.
-/

namespace BeepMusic.Async

open Lib List Option

variable {K V : Type}

/-- What an event does to a buffer. A put counts also when a full
`DroppingBuffer` throws the value away. -/
inductive Access (V : Type)
  | put (v : Option V)
  | take (v : Option V)
  | make (kind : BufferKind) (size : Option ℤ)

def Access.nonNil : Access V → Bool
  | .put v => v.isSome
  | _ => true

/-- The access of a `Channel:put`: none for a closed channel or a wait. -/
def Channel.putAccess (c : Channel V) (resumed : Bool) (v : Option V) : Option (Access V) :=
  match c.put resumed v with
  | some (true, _, _) => some (.put v)
  | _ => none

/-- The access of a `Channel:take`: none for a closed and empty channel or a wait. -/
def Channel.takeAccess (c : Channel V) (resumed : Bool) : Option (Access V) :=
  match c.take resumed with
  | some (v, _, true) => some (.take v)
  | _ => none

/-- The access of a put from the main thread. -/
def State.mainPutAccess (s : State K V) (ch : ChanId) (v : Option V) : Option (Access V) :=
  let c := s.chan ch
  if c.closed then none
  else if c.buffer.kind = .standard ∧ c.buffer.size.isSome then none
  else c.putAccess false v

variable (code : K → Op K V)

/-- The access of the next action of the coroutine `t`. -/
def execAccess (s : State K V) (t : Thread K) : Option (ChanId × Access V) :=
  let resumed := decide (t.status = .suspended)
  match code t.cont with
  | .done v => ((s.chan t.result).putAccess resumed (some v)).map (t.result, ·)
  | .put ch v _ => ((s.chan ch).putAccess resumed v).map (ch, ·)
  | .take ch _ => ((s.chan ch).takeAccess resumed).map (ch, ·)
  | .takeAsync ch _ => ((s.chan ch).takeAccess false).map (ch, ·)
  | .newChannel kind size _ => some (s.fresh, .make kind size)
  | .timeout _ => some (s.fresh, .make .standard none)
  | .go _ _ => some (s.fresh, .make .standard (some 1))
  | .fail | .alts _ _ _ | .close _ _ => none

def callbackAccess (tick : V) (s : State K V) : Event K V → Option (ChanId × Access V)
  | .expire n => s.timers[n]?.bind fun ch => (s.mainPutAccess ch (some tick)).map (ch, ·)
  | .put ch v => (s.mainPutAccess ch v).map (ch, ·)
  | .takeAsync ch => ((s.chan ch).takeAccess false).map (ch, ·)
  | .newChannel kind size => some (s.fresh, .make kind size)
  | .timeout => some (s.fresh, .make .standard none)
  | .go _ => some (s.fresh, .make .standard (some 1))
  | .run | .resume | .start | .close _ => none

/-- The access of an event of the scheduler. -/
def access (tick : V) (s : State K V) (e : Event K V) : Option (ChanId × Access V) :=
  match s.pass with
  | none => callbackAccess tick s e
  | some i => s.threads[i]?.bind (execAccess code s)

/-- The part of an access that is about the channel `ch`. -/
def accessAt (ch : ChanId) (a : Option (ChanId × Access V)) : Option (Access V) :=
  (a.filter fun p => decide (p.1 = ch)).map Prod.snd

/-- The log of a channel with buffer `b` after an access. -/
def record (log : QueueLog V) (b : Buffer V) : Option (Access V) → QueueLog V
  | none => log
  | some (.put v) => log.recordPut v
  | some (.take v) => log.recordTake v b.vals.length
  | some (.make _ _) => .empty

/-- The scheduler with the logs of its channels. -/
def traced (tick : V) : System (State K V × (ChanId → QueueLog V)) (Event K V) where
  init := (.init, fun _ => .empty)
  step s e := (step code tick s.1 e).map fun s' =>
    (s', fun ch => record (s.2 ch) (s.1.chan ch).buffer (accessAt ch (access code tick s.1 e)))

/-- The event puts no `nil`. -/
def NonNil (tick : V) (s : State K V × (ChanId → QueueLog V)) (e : Event K V) : Prop :=
  (access code tick s.1 e).all (fun p => p.2.nonNil) = true
deriving Decidable

variable {code}

/-! ### Accesses and buffers -/

/-- The buffer `b'` is `b` after the access. -/
def Does (b b' : Buffer V) : Option (Access V) → Prop
  | none => b' = b
  | some (.put v) => ∃ sched, b.put v = some (b', sched)
  | some (.take v) => b.take = some (v, b')
  | some (.make kind size) => b' = .new kind size

variable {c : Channel V} {resumed sched : Bool} {v : Option V} {ch : ChanId}
  {chan : ChanId → Channel V} {tick : V}

theorem Channel.does_put {c' : Channel V} {r : Bool} (h : c.put resumed v = some (r, c', sched)) :
    Does c.buffer c'.buffer (c.putAccess resumed v) := by
  rw [putAccess, h]
  rw [put] at h
  split at h
  · cases h
    rfl
  · obtain ⟨⟨b, sched'⟩, hput, heq⟩ := map_eq_some_iff.mp h
    cases heq
    exact ⟨_, hput⟩

theorem Channel.putAccess_eq_none (h : c.put resumed v = none) : c.putAccess resumed v = none := by
  rw [putAccess, h]

theorem Channel.does_take {c' : Channel V} (h : c.take resumed = some (v, c', sched)) :
    Does c.buffer c'.buffer (c.takeAccess resumed) := by
  rw [takeAccess, h]
  rw [take] at h
  split at h
  · cases h
    rfl
  · obtain ⟨⟨w, b⟩, htake, heq⟩ := map_eq_some_iff.mp h
    cases heq
    exact htake

theorem Channel.takeAccess_eq_none (h : c.take resumed = none) : c.takeAccess resumed = none := by
  rw [takeAccess, h]

theorem Channel.does_takeAsync (c : Channel V) :
    Does c.buffer c.takeAsync.2.1.buffer (c.takeAccess false) := by
  cases h : c.take false with
  | none =>
    rw [takeAccess_eq_none h, takeAsync, h]
    rfl
  | some r =>
    rw [takeAsync, h]
    exact does_take h

theorem accessAt_map_self (ch : ChanId) (a : Option (Access V)) :
    accessAt ch (a.map (ch, ·)) = a := by
  cases a <;> simp [accessAt]

theorem accessAt_map_ne {d : ChanId} (h : d ≠ ch) (a : Option (Access V)) :
    accessAt d (a.map (ch, ·)) = none := by
  cases a <;> simp [accessAt, Option.filter, h.symm]

/-- All buffers after an access. -/
def Accessed (chan chan' : ChanId → Channel V) (a : Option (ChanId × Access V)) : Prop :=
  ∀ ch, Does (chan ch).buffer (chan' ch).buffer (accessAt ch a)

theorem Accessed.refl (chan : ChanId → Channel V) : Accessed chan chan none := fun _ => rfl

theorem Accessed.update {a : Option (Access V)} (h : Does (chan ch).buffer c.buffer a) :
    Accessed chan (Function.update chan ch c) (a.map (ch, ·)) := by
  intro d
  by_cases hd : d = ch
  · subst hd
    rw [Function.update_self, accessAt_map_self]
    exact h
  · rw [Function.update_of_ne hd, accessAt_map_ne hd]
    rfl

theorem Accessed.put {r : Bool} (h : (chan ch).put resumed v = some (r, c, sched)) :
    Accessed chan (Function.update chan ch c) (((chan ch).putAccess resumed v).map (ch, ·)) :=
  .update (Channel.does_put h)

theorem Accessed.waitPut (h : (chan ch).put resumed v = none) :
    Accessed chan chan (((chan ch).putAccess resumed v).map (ch, ·)) := by
  rw [Channel.putAccess_eq_none h]
  exact .refl chan

variable {s s' : State K V}

theorem State.accessed_create (s : State K V) (kind : BufferKind) (size : Option ℤ) :
    Accessed s.chan (s.create kind size).chan (some (s.fresh, .make kind size)) :=
  .update (a := some (.make kind size)) rfl

theorem State.accessed_takeAsync (s : State K V) (ch : ChanId) :
    Accessed s.chan (s.takeAsync ch).chan (((s.chan ch).takeAccess false).map (ch, ·)) :=
  .update (s.chan ch).does_takeAsync

theorem State.accessed_close (s : State K V) (ch : ChanId) :
    Accessed s.chan (s.close ch).chan none :=
  .update (a := none) rfl

theorem State.accessed_mainPut (s : State K V) (ch : ChanId) (v : Option V) :
    Accessed s.chan (s.mainPut ch v).chan ((s.mainPutAccess ch v).map (ch, ·)) := by
  rw [mainPut, mainPutAccess]
  split
  · exact .refl s.chan
  · split
    · exact .refl s.chan
    · split
      · rename_i hput
        exact .waitPut hput
      · rename_i hput
        exact .put hput

theorem exec_accessed (s : State K V) (i : ℕ) (t : Thread K) :
    Accessed s.chan (exec code s i t).chan (execAccess code s t) := by
  rw [exec, execAccess]
  cases code t.cont with
  | fail => exact .refl s.chan
  | done v | put ch v next =>
    dsimp only
    split
    · rename_i hput
      exact .waitPut hput
    · rename_i hput
      exact .put hput
  | take ch next =>
    dsimp only
    split
    · rename_i htake
      rw [Channel.takeAccess_eq_none htake]
      exact .refl s.chan
    · rename_i htake
      exact .update (Channel.does_take htake)
  | takeAsync ch next => exact s.accessed_takeAsync ch
  | alts takes puts next =>
    dsimp only
    split
    · exact .refl s.chan
    · split
      · exact .refl s.chan
      · split <;> exact .refl s.chan
  | close ch next => exact s.accessed_close ch
  | newChannel kind size next => exact s.accessed_create kind size
  | timeout next => exact s.accessed_create .standard none
  | go child next => exact s.accessed_create .standard (some 1)

theorem callback_accessed {e : Event K V} (h : callback tick s e = some s') :
    Accessed s.chan s'.chan (callbackAccess tick s e) := by
  cases e with
  | run =>
    rw [callback, ite_none_right_eq_some] at h
    cases h.2
    exact .refl s.chan
  | resume => cases h
  | expire n =>
    rw [callback] at h
    split at h
    · cases h
    · rename_i ch hch
      cases h
      rw [callbackAccess, hch]
      exact State.accessed_mainPut { s with timers := s.timers.eraseIdx n } ch (some tick)
  | start =>
    cases h
    exact .refl s.chan
  | put ch v =>
    cases h
    exact s.accessed_mainPut ch v
  | takeAsync ch =>
    cases h
    exact s.accessed_takeAsync ch
  | close ch =>
    cases h
    exact s.accessed_close ch
  | newChannel kind size =>
    cases h
    exact s.accessed_create kind size
  | timeout | go child =>
    cases h
    exact s.accessed_create _ _

/-- What a step of the scheduler does to the buffers. -/
theorem step_accessed {e : Event K V} (h : step code tick s e = some s') :
    Accessed s.chan s'.chan (access code tick s e) := by
  rw [step, ite_none_left_eq_some] at h
  obtain ⟨-, h⟩ := h
  rw [access]
  cases hpass : s.pass with
  | none =>
    simp only [hpass] at h
    exact callback_accessed h
  | some i =>
    simp only [hpass] at h
    split at h
    · split at h
      · rename_i hi
        cases h
        simp only [hi]
        exact .refl s.chan
      · rename_i t hi
        cases h
        simp only [hi, bind_some]
        exact exec_accessed s i t
    · cases h

/-! ### Buffers and logs -/

/-- A `Buffer` loses nothing, and keeps to its size. -/
structure Buffer.Queues (b : Buffer V) (log : QueueLog V) : Prop where
  count_eq : b.count = b.vals.length
  count_le : ∀ n : ℕ, b.size = some (n : ℤ) → b.count ≤ n
  fifo : log.Fifo b.vals

/-- A `SlidingBuffer` of size `n` has the latest values. -/
structure Buffer.Slides (n : ℕ) (b : Buffer V) (log : QueueLog V) : Prop where
  count_eq : b.count = b.vals.length
  latest : log.Latest n b.vals

/-- The buffer is what its kind and size make of its log. -/
structure Buffer.Carries (b : Buffer V) (log : QueueLog V) : Prop where
  queues : b.kind = .standard → b.Queues log
  slides : b.kind = .sliding → ∀ n : ℕ, 1 ≤ n → b.size = some (n : ℤ) → b.Slides n log

namespace Buffer

variable {b b' : Buffer V} {log : QueueLog V} {v : V}

theorem carries_new (kind : BufferKind) (size : Option ℤ) :
    (new kind size : Buffer V).Carries .empty where
  queues _ := {
    count_eq := rfl
    count_le := fun n _ => Int.natCast_nonneg n
    fifo := .empty }
  slides _ _ _ _ := { count_eq := rfl, latest := .empty }

theorem full_iff {n : ℤ} (h : b.size = some n) : b.full = true ↔ b.count = n := by
  simp [full, h, eq_comm]

theorem count_ne_of_room {n : ℤ} (hroom : b.full = false) (hsize : b.size = some n) :
    b.count ≠ n := by
  intro hcount
  rw [(full_iff hsize).mpr hcount] at hroom
  cases hroom

theorem Queues.push (h : b.Queues log) (hroom : b.full = false) :
    (b.push (some v)).Queues (log.recordPut (some v)) where
  count_eq := by
    simp [Buffer.push, h.count_eq]
  count_le := by
    intro n hn
    have hle := h.count_le n hn
    have hne : b.count ≠ n := count_ne_of_room hroom hn
    simp only [Buffer.push]
    omega
  fifo := h.fifo.recordPut v

theorem Slides.push {n : ℕ} (h : b.Slides n log) (hsize : b.size = some (n : ℤ))
    (hroom : b.full = false) : (b.push (some v)).Slides n (log.recordPut (some v)) where
  count_eq := by
    simp [Buffer.push, h.count_eq]
  latest := by
    have hlen := h.latest.length
    have hne : b.count ≠ n := count_ne_of_room hroom hsize
    have hcount := h.count_eq
    exact h.latest.recordPut (by omega) v

theorem Slides.pop_push {n : ℕ} (h : b.Slides n log) (hn : 1 ≤ n) (hsize : b.size = some (n : ℤ))
    (hfull : b.full = true) : (b.pop.push (some v)).Slides n (log.recordPut (some v)) := by
  have hcount := h.count_eq
  rw [(full_iff hsize).mp hfull] at hcount
  have hlen : b.vals.length = n := by omega
  refine ⟨?_, h.latest.recordPut_tail hn hlen v⟩
  simp only [Buffer.push, Buffer.pop, h.count_eq, toList_some, length_append,
    length_tail, length_singleton]
  omega

theorem Carries.put (h : b.Carries log) {sched : Bool} (hput : b.put (some v) = some (b', sched)) :
    b'.Carries (log.recordPut (some v)) := by
  rw [Buffer.put] at hput
  cases hkind : b.kind with
  | standard =>
    rw [hkind] at hput
    obtain ⟨hroom, heq⟩ := ite_none_left_eq_some.mp hput
    cases heq
    refine ⟨fun _ => (h.queues hkind).push (by simpa using hroom), fun hsliding => ?_⟩
    cases hkind.symm.trans hsliding
  | sliding =>
    rw [hkind] at hput
    cases hput
    refine ⟨fun hstandard => ?_, fun _ n hn hsize => ?_⟩
    · split at hstandard <;> cases hkind.symm.trans hstandard
    · split at hsize
      · rename_i hfull
        rw [if_pos hfull]
        exact (h.slides hkind n hn hsize).pop_push hn hsize hfull
      · rename_i hfull
        rw [if_neg hfull]
        exact (h.slides hkind n hn hsize).push hsize (by simpa using hfull)
  | dropping =>
    have hkind' : b'.kind = .dropping := by
      rw [hkind] at hput
      dsimp only at hput
      split at hput <;> cases hput <;> exact hkind
    refine ⟨fun hstandard => ?_, fun hsliding => ?_⟩
    · cases hkind'.symm.trans hstandard
    · cases hkind'.symm.trans hsliding

theorem Carries.take (h : b.Carries log) {w : Option V} (htake : b.take = some (w, b')) :
    b'.Carries (log.recordTake w b.vals.length) := by
  obtain ⟨hcount, heq⟩ := ite_none_left_eq_some.mp htake
  cases heq
  -- a buffer that counts its values has one to give
  have hcons : b.count = b.vals.length → ∃ v rest, b.vals = v :: rest := by
    intro hlen
    exact exists_cons_of_length_pos (by omega)
  refine ⟨fun hkind => ?_, fun hkind n hn hsize => ?_⟩
  · have hq := h.queues hkind
    obtain ⟨v, rest, hvals⟩ := hcons hq.count_eq
    have hlen := hq.count_eq
    have hfifo := hq.fifo
    rw [hvals] at hlen hfifo ⊢
    refine ⟨?_, ?_, ?_⟩
    · simp only [pop, hvals, tail_cons, hlen, length_cons]
      omega
    · intro m hm
      have hle := hq.count_le m hm
      simp only [pop]
      omega
    · simp only [pop, hvals, tail_cons, head?_cons]
      exact hfifo.recordTake _
  · have hs := h.slides hkind n hn hsize
    obtain ⟨v, rest, hvals⟩ := hcons hs.count_eq
    have hlen := hs.count_eq
    have hlatest := hs.latest
    rw [hvals] at hlen hlatest ⊢
    refine ⟨?_, ?_⟩
    · simp only [pop, hvals, tail_cons, hlen, length_cons]
      omega
    · simp only [pop, hvals, tail_cons, head?_cons]
      exact hlatest.recordTake

end Buffer

/-- An access that puts no `nil` keeps a buffer true to its log. -/
theorem Does.carries {b b' : Buffer V} {log : QueueLog V} {a : Option (Access V)}
    (hdoes : Does b b' a) (h : b.Carries log) (hnil : a.all Access.nonNil = true) :
    b'.Carries (record log b a) := by
  rcases a with _ | (v | w | ⟨kind, size⟩)
  · exact (show b' = b from hdoes) ▸ h
  · obtain ⟨sched, hput⟩ := hdoes
    obtain ⟨w, rfl⟩ := isSome_iff_exists.mp hnil
    exact h.put hput
  · exact h.take hdoes
  · exact (show b' = .new kind size from hdoes) ▸ Buffer.carries_new kind size

/-- All channels are true to their logs, as long as no `nil` is put. -/
theorem traced_carries {s : State K V × (ChanId → QueueLog V)}
    (hs : (traced code tick).ReachableUnder (NonNil code tick) s) (ch : ChanId) :
    (s.1.chan ch).buffer.Carries (s.2 ch) := by
  refine hs.invariant (I := fun s => ∀ ch, (s.1.chan ch).buffer.Carries (s.2 ch))
    (fun _ => Buffer.carries_new _ _) ?_ ch
  intro s e s' h hnil hstep ch
  obtain ⟨t, ht, rfl⟩ := map_eq_some_iff.mp hstep
  refine (step_accessed ht ch).carries (h ch) ?_
  simp only [NonNil, Option.all_eq_true] at hnil
  simp only [accessAt, Option.all_eq_true, map_eq_some_iff, filter_eq_some_iff]
  rintro a ⟨p, ⟨hp, -⟩, rfl⟩
  exact hnil p hp

end BeepMusic.Async
