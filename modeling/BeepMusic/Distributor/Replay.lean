import Mathlib.Data.List.Infix
import BeepMusic.Distributor.Rebuffer

/-!
The replay law. A rebuffer sends every player that survives it the header of the
current track and the end of what was streamed since the last flush, as long as
no other track begins while the header of an `'o'` track is still collected.
The current track is read off the history of stream events alone.
-/

namespace BeepMusic.Distributor

open Lib List

/-- A track as it was streamed: all its buffers, and how many of them came
before the last flush. -/
structure Track where
  audioType : String
  emitted : List Data
  flushed : ℕ
  ended : Bool
  flushed_le : flushed ≤ emitted.length

/-- The leading buffers, up to the one that completes 8192 bytes. -/
def headerFrom (size : ℕ) : List Data → List Data
  | [] => []
  | data :: rest =>
    if size < 8192 then data :: headerFrom (size + data.length) rest else []

variable (t : Track)

namespace Track

def start (audioType : String) : Track := ⟨audioType, [], 0, false, le_rfl⟩

def emit (data : Data) : Track where
  audioType := t.audioType
  emitted := t.emitted ++ [data]
  flushed := t.flushed
  ended := t.ended
  flushed_le := by
    have hle := t.flushed_le
    rw [List.length_append]
    omega

def flush : Track where
  audioType := t.audioType
  emitted := t.emitted
  flushed := t.emitted.length
  ended := t.ended
  flushed_le := le_rfl

def finish : Track := { t with ended := true }

/-- The header that is replayed. -/
def header : List Data :=
  if t.audioType = "o" then headerFrom 0 t.emitted else []

/-- The buffers since the last flush that do not belong to the header. -/
def sinceFlush : List Data := t.emitted.drop (max t.flushed t.header.length)

/-- What one stream event does to the current track. -/
def see {τ : Type} (t : Option Track) : StreamEvent τ → Option Track
  | .acquireStarted _ => none
  | .trackBegin _ _ audioType => some (start audioType)
  | .buffer data => t.map fun t => t.emit data
  | .flush => t.map flush
  | .trackEnd => t.map finish
  | .waitingForAcquire | .acquireDone | .rebuffer => t

/-- The current track after the events of `history`. -/
def current {τ : Type} (history : List (StreamEvent τ)) : Option Track :=
  history.foldl see none

@[simp] theorem current_append {τ : Type} (history : List (StreamEvent τ)) (e : StreamEvent τ) :
    current (history ++ [e]) = see (current history) e := by
  simp [current, foldl_append]

end Track

/-- Audio data and its end, as opposed to control. -/
def Send.isData : Send → Bool
  | .buffer _ | .trackEnd => true
  | .stop _ | .start | .trackBegin _ | .flush _ => false

/-- The data a rebuffer has sent to a player. -/
def Rebuffer.dataSent (rb : Rebuffer) (p : Player) : List Send :=
  (rb.sends.filter fun x => x.1 = p ∧ x.2.isData = true).map Prod.snd

/-- The data of a whole replay. -/
def replayOf (headers buffers : List Data) (ended : Bool) : List Send :=
  (headers ++ buffers).map Send.buffer ++ if ended then [.trackEnd] else []

/-- What a player should get: the header of the current track, the end of what
was streamed since the last flush, and the end of the track if it was streamed. -/
def ReplayLaw (track : Option Track) (sent : List Send) : Prop :=
  match track with
  | none => sent = []
  | some t => ∃ kept, kept <:+ t.sinceFlush ∧ sent = replayOf t.header kept t.ended

instance (track : Option Track) (sent : List Send) : Decidable (ReplayLaw track sent) :=
  match track with
  | none => inferInstanceAs (Decidable (sent = []))
  | some t =>
    decidable_of_iff
      (∃ kept ∈ t.sinceFlush.tails, sent = replayOf t.header kept t.ended)
      (by simp [ReplayLaw, List.mem_tails])

namespace BufferThread

variable {τ : Type}

/-- No track of another type begins while the header of an `'o'` track is still
collected. -/
def HeaderComplete (s : BufferThread τ) : BufferInput τ → Prop
  | .streamEvent (.trackBegin _ _ audioType) => audioType ≠ "o" → s.saveHeader = false
  | _ => True

instance (s : BufferThread τ) (input : BufferInput τ) : Decidable (s.HeaderComplete input) :=
  match input with
  | .streamEvent (.trackBegin _ _ _) => inferInstanceAs (Decidable (_ → _))
  | .streamEvent .waitingForAcquire | .streamEvent (.acquireStarted _)
  | .streamEvent .acquireDone | .streamEvent .trackEnd | .streamEvent .flush
  | .streamEvent (.buffer _) | .streamEvent .rebuffer | .players _ | .playerStates _ _
  | .request _ _ | .report _ _ | .stopResult _ _ _ | .run _ => isTrue trivial

end BufferThread

section Header

theorem headerFrom_append (size : ℕ) (ds : List Data) (data : Data) :
    headerFrom size (ds ++ [data]) =
      if headerFrom size ds = ds ∧ size + headerLen ds < 8192 then ds ++ [data]
      else headerFrom size ds := by
  induction ds generalizing size with
  | nil =>
    by_cases hsize : size < 8192 <;> simp [headerFrom, headerLen, hsize]
  | cons d ds ih =>
    have hlen : size + headerLen (d :: ds) = size + d.length + headerLen ds := by
      simp [headerLen, Nat.add_assoc]
    rw [cons_append, headerFrom, headerFrom, hlen]
    split
    · rw [ih]
      simp only [List.cons.injEq, true_and]
      split
      · rfl
      · rfl
    · simp

theorem length_headerFrom_le (size : ℕ) (ds : List Data) :
    (headerFrom size ds).length ≤ ds.length := by
  induction ds generalizing size with
  | nil => simp [headerFrom]
  | cons d ds ih =>
    simp only [headerFrom]
    split
    · simpa using ih (size + d.length)
    · simp

theorem Track.length_header_le : t.header.length ≤ t.emitted.length := by
  rw [header]
  split
  · exact length_headerFrom_le 0 t.emitted
  · simp

end Header

theorem evict_suffix {playerAmount : ℚ} {ds rest : List Data} {amount amount' : ℤ}
    (h : evict playerAmount ds amount = some (rest, amount')) : rest <:+ ds := by
  induction ds generalizing amount with
  | nil =>
    rw [evict] at h
    split at h
    · cases h
    · cases h
      exact suffix_rfl
  | cons data ds ih =>
    rw [evict] at h
    split at h
    · exact (ih h).trans (suffix_cons data ds)
    · cases h
      exact suffix_rfl

namespace BufferThread

variable {τ : Type}

/-- The locals of the thread hold what they should of the current track. -/
structure Collected (s : BufferThread τ) (t : Track) : Prop where
  trackBegin : s.trackBegin = some t.audioType
  trackEnd : s.trackEnd = t.ended
  headers : s.headers = t.header
  buffers : s.buffers <:+ t.sinceFlush
  collecting : s.saveHeader = true → t.audioType = "o" ∧ t.header = t.emitted
  complete : s.saveHeader = false → t.audioType = "o" → t.header.length < t.emitted.length

/-- The locals agree with the history. -/
def Current (s : BufferThread τ) : Prop :=
  match Track.current s.history with
  | none => s.trackBegin = none
  | some t => s.Collected t

section Collect

variable {s : BufferThread τ} {t : Track}

/-- While the header is collected there is nothing else. -/
theorem Collected.buffers_eq_nil (h : s.Collected t) (hsave : s.saveHeader = true) :
    s.buffers = [] := by
  have hnil : t.sinceFlush = [] := by
    rw [Track.sinceFlush, drop_eq_nil_iff, (h.collecting hsave).2]
    exact le_max_right _ _
  exact suffix_nil.mp (hnil ▸ h.buffers)

theorem Collected.header_emit (h : s.Collected t) (data : Data)
    (hkeep : (s.saveHeader && decide (headerLen s.headers < 8192)) = true) :
    (t.emit data).header = t.header ++ [data] := by
  obtain ⟨hsave, hlen⟩ := Bool.and_eq_true_iff.mp hkeep
  obtain ⟨htype, hall⟩ := h.collecting hsave
  have hheader : headerFrom 0 t.emitted = t.emitted := by
    simpa [Track.header, htype] using hall
  have hsize : 0 + headerLen t.emitted < 8192 := by
    have hlen := of_decide_eq_true hlen
    rw [h.headers, hall] at hlen
    omega
  rw [hall]
  simp only [Track.header, Track.emit, htype, if_true]
  rw [headerFrom_append, if_pos ⟨hheader, hsize⟩]

/-- Once the header is complete, or for a track without one, it does not grow. -/
theorem Collected.header_emit_eq (h : s.Collected t) (data : Data)
    (hkeep : ¬(s.saveHeader && decide (headerLen s.headers < 8192)) = true) :
    (t.emit data).header = t.header := by
  by_cases htype : t.audioType = "o"
  · simp only [Track.header, Track.emit, htype, if_true]
    rw [headerFrom_append, if_neg]
    rintro ⟨hall, hsize⟩
    have hheader : t.header = t.emitted := by simpa [Track.header, htype] using hall
    cases hsave : s.saveHeader with
    | true =>
      rw [hsave, h.headers, hheader] at hkeep
      simp at hkeep
      omega
    | false =>
      have hlt := h.complete hsave htype
      rw [hheader] at hlt
      omega
  · simp [Track.header, Track.emit, htype]

theorem Collected.keepBuffer (h : s.Collected t) (data : Data) :
    (s.keepBuffer data).Collected (t.emit data) := by
  rw [BufferThread.keepBuffer]
  split
  · next hkeep =>
      have hsave := (Bool.and_eq_true_iff.mp hkeep).1
      have hheader := h.header_emit data hkeep
      refine ⟨h.trackBegin, h.trackEnd, ?_, ?_, ?_, ?_⟩
      · rw [hheader, ← h.headers]
      · rw [h.buffers_eq_nil hsave]
        exact nil_suffix
      · intro _
        refine ⟨(h.collecting hsave).1, ?_⟩
        rw [hheader, (h.collecting hsave).2]
        rfl
      · intro hcomplete
        rw [show s.saveHeader = false from hcomplete] at hsave
        cases hsave
  · next hkeep =>
      have hheader := h.header_emit_eq data hkeep
      refine ⟨h.trackBegin, h.trackEnd, ?_, ?_, ?_, ?_⟩
      · rw [hheader, ← h.headers]
      · have hle : max t.flushed t.header.length ≤ t.emitted.length :=
          max_le t.flushed_le t.length_header_le
        obtain ⟨dropped, hdropped⟩ := h.buffers
        refine ⟨dropped, ?_⟩
        change dropped ++ (s.buffers ++ [data]) =
          (t.emitted ++ [data]).drop (max t.flushed (t.emit data).header.length)
        rw [hheader, drop_append_of_le_length hle, ← append_assoc, hdropped]
        rfl
      · exact nofun
      · intro _ _
        have hle := t.length_header_le
        rw [hheader, Track.emit, length_append]
        change _ < _ + 1
        omega

variable {s' : BufferThread τ}

theorem Current.map {f : Track → Track} (h : s.Current)
    (hhistory : Track.current s'.history = (Track.current s.history).map f)
    (hnone : s'.trackBegin = s.trackBegin) (hsome : ∀ t, s.Collected t → s'.Collected (f t)) :
    s'.Current := by
  rw [Current] at h ⊢
  rw [hhistory]
  cases hcurrent : Track.current s.history with
  | none =>
    rw [hcurrent] at h
    exact hnone.trans h
  | some t =>
    rw [hcurrent] at h
    exact hsome t h

theorem Current.congr (h : s.Current)
    (hhistory : Track.current s'.history = Track.current s.history)
    (hbegin : s'.trackBegin = s.trackBegin) (hend : s'.trackEnd = s.trackEnd)
    (hheaders : s'.headers = s.headers) (hbuffers : s'.buffers <:+ s.buffers)
    (hsave : s'.saveHeader = s.saveHeader) : s'.Current := by
  refine h.map (f := id) (by simpa using hhistory) hbegin ?_
  intro t ht
  refine ⟨hbegin.trans ht.trackBegin, hend.trans ht.trackEnd, hheaders.trans ht.headers,
    hbuffers.trans ht.buffers, ?_, ?_⟩
  · rw [hsave]
    exact ht.collecting
  · rw [hsave]
    exact ht.complete

/-- What the thread keeps of the stream, and the stream itself. -/
def kept (s : BufferThread τ) :=
  (s.history, s.trackBegin, s.headers, s.buffers, s.trackEnd, s.saveHeader)

theorem Current.of_kept (h : s.Current) (heq : s'.kept = s.kept) : s'.Current := by
  simp only [kept, Prod.mk.injEq] at heq
  obtain ⟨hhistory, hbegin, hheaders, hbuffers, hend, hsave⟩ := heq
  exact h.congr (hhistory ▸ rfl) hbegin hend hheaders (hbuffers ▸ suffix_rfl) hsave

/-- A new track begins with a new header, or with none to collect. -/
theorem collected_start {audioType : String} (hok : audioType ≠ "o" → s.saveHeader = false)
    (contentLength : ℤ) (trackInfo : Option τ) :
    (s.handleStreamEvent (.trackBegin contentLength trackInfo audioType)).Collected
      (Track.start audioType) := by
  simp only [BufferThread.handleStreamEvent]
  split
  · next htype =>
      subst htype
      exact ⟨rfl, rfl, rfl, suffix_rfl, fun _ => ⟨rfl, rfl⟩, nofun⟩
  · next htype =>
      refine ⟨rfl, rfl, by simp [reset, Track.header, Track.start, htype], nil_suffix, ?_,
        fun _ ho => absurd ho htype⟩
      intro hsave
      rw [show s.saveHeader = true from hsave] at hok
      cases hok htype

theorem history_handleStreamEvent (e : StreamEvent τ) :
    (s.handleStreamEvent e).history = s.history ++ [e] := by
  cases e with
  | trackBegin contentLength trackInfo audioType =>
    simp only [BufferThread.handleStreamEvent]
    split <;> rfl
  | buffer data =>
    simp only [BufferThread.handleStreamEvent, BufferThread.keepBuffer]
    split <;> rfl
  | waitingForAcquire | acquireStarted | acquireDone | trackEnd | flush | rebuffer => rfl

theorem Current.handleStreamEvent (h : s.Current) {e : StreamEvent τ}
    (hok : s.HeaderComplete (.streamEvent e)) : (s.handleStreamEvent e).Current := by
  have hhistory : Track.current (s.handleStreamEvent e).history =
      Track.see (Track.current s.history) e := by
    rw [history_handleStreamEvent, Track.current_append]
  cases e with
  | acquireStarted app =>
    rw [Current, hhistory]
    rfl
  | trackBegin contentLength trackInfo audioType =>
    rw [Current, hhistory]
    exact collected_start hok contentLength trackInfo
  | buffer data =>
    refine h.map hhistory ?_ ?_
    · simp only [BufferThread.handleStreamEvent, BufferThread.keepBuffer]
      split <;> rfl
    · intro t ht
      have hseen : Collected { s with history := s.history ++ [.buffer data] } t :=
        { ht with }
      exact hseen.keepBuffer data
  | flush =>
    refine h.map hhistory rfl fun t ht => ?_
    exact { ht with buffers := nil_suffix }
  | trackEnd =>
    refine h.map hhistory rfl fun t ht => ?_
    exact { ht with trackEnd := rfl }
  | waitingForAcquire | acquireDone | rebuffer =>
    exact h.congr hhistory rfl rfl rfl suffix_rfl rfl

theorem Current.handlePlayerStates (h : s.Current) (matched : List String) :
    (s.handlePlayerStates matched).Current := by
  rw [BufferThread.handlePlayerStates]
  split
  · exact h.of_kept rfl
  · split
    · exact h
    · dsimp only
      split
      · exact h.of_kept rfl
      · next hevict => exact h.congr rfl rfl rfl rfl (evict_suffix hevict) rfl

end Collect

end BufferThread

namespace Rebuffer

/-- The data the call has to send. -/
def replay (rb : Rebuffer) : List Send :=
  if rb.trackBegin.isSome then replayOf rb.headers rb.buffers rb.trackEnd else []

/-- The data that is still to be sent at a program point. -/
def remainingAt (rb : Rebuffer) : RebufferPoint → List Send
  | .stopping _ _ | .cookieWait _ | .trackBeginTest _ | .trackBeginWait _ | .trackBegin =>
    rb.replay
  | .headers left => replayOf left rb.buffers rb.trackEnd
  | .buffers _ left => replayOf [] left rb.trackEnd
  | .bufferWait _ data left => replayOf [] (data :: left) rb.trackEnd
  | .done => []

/-- Every player that is left has got all but what remains. -/
def Delivers (rb : Rebuffer) : Prop :=
  ∀ p ∈ rb.players.players, rb.dataSent p ++ rb.remainingAt rb.point = rb.replay

variable {rb : Rebuffer}

theorem Delivers.keep (h : rb.Delivers) (pred : Player → Bool) : (rb.keep pred).Delivers :=
  fun p hp => h p (mem_filter.mp hp).1

theorem Delivers.goTo (h : rb.Delivers) {point : RebufferPoint}
    (hremaining : rb.remainingAt point = rb.remainingAt rb.point) : (rb.goTo point).Delivers := by
  intro p hp
  change rb.dataSent p ++ rb.remainingAt point = rb.replay
  rw [hremaining]
  exact h p hp

theorem delivers_of_isEmpty (h : rb.players.isEmpty = true) : rb.Delivers := by
  intro p hp
  rw [PlayerSet.isEmpty, List.isEmpty_iff] at h
  rw [h] at hp
  cases hp

theorem Delivers.goToUnlessEmpty (h : rb.Delivers) {point : RebufferPoint}
    (hremaining : rb.remainingAt point = rb.remainingAt rb.point) :
    (rb.goToUnlessEmpty point).Delivers := by
  rw [Rebuffer.goToUnlessEmpty]
  split
  · next hempty => exact delivers_of_isEmpty hempty
  · exact h.goTo hremaining

/-- A player of the set gets what is sent to the set, once. -/
theorem dataSent_send {p : Player} (hp : p ∈ rb.players.players) (x : Send)
    (failed : List Player) :
    (rb.send x failed).dataSent p = rb.dataSent p ++ if x.isData then [x] else [] := by
  have hcount : rb.players.players.count p = 1 :=
    count_eq_one_of_mem rb.players.nodup.of_map hp
  have hfilter : (rb.players.players.map fun q => (q, x)).filter
      (fun y => decide (y.1 = p ∧ y.2.isData = true)) = if x.isData then [(p, x)] else [] := by
    rw [List.filter_map]
    split
    · next hdata =>
        have hsame : (rb.players.players.filter
            ((fun y : Player × Send => decide (y.1 = p ∧ y.2.isData = true)) ∘
              fun q => (q, x))) = [p] := by
          simp only [Function.comp_def, hdata, and_true]
          rw [filter_eq, hcount]
          rfl
        rw [hsame]
        rfl
    · next hdata => simp [Function.comp_def, hdata]
  rw [dataSent, dataSent, send, filter_append, map_append, hfilter]
  split <;> rfl

theorem Delivers.send (h : rb.Delivers) {x : Send} {failed : List Player}
    {next : RebufferPoint}
    (hremaining : rb.remainingAt rb.point =
      (if x.isData then [x] else []) ++ rb.remainingAt next) :
    ((rb.send x failed).goToUnlessEmpty next).Delivers := by
  rw [Rebuffer.goToUnlessEmpty]
  split
  · next hempty => exact delivers_of_isEmpty hempty
  · intro p hp
    have hmem : p ∈ rb.players.players := (mem_filter.mp hp).1
    change (rb.send x failed).dataSent p ++ rb.remainingAt next = rb.replay
    rw [dataSent_send hmem, append_assoc, ← hremaining]
    exact h p hmem

theorem Delivers.control (h : rb.Delivers) (p : Player) {x : Send} (hx : x.isData = false) :
    { rb with sends := rb.sends ++ [(p, x)] }.Delivers := by
  intro q hq
  have hdata : { rb with sends := rb.sends ++ [(p, x)] }.dataSent q = rb.dataSent q := by
    simp [dataSent, filter_append, hx]
  rw [hdata]
  exact h q hq

/-- What the call was given. -/
def task (rb : Rebuffer) : Option String × List Data × List Data × Bool :=
  (rb.trackBegin, rb.headers, rb.buffers, rb.trackEnd)

/-- After the wait for the cookie everything remains, and without a track that
is nothing. -/
theorem Delivers.cookieMatched (h : rb.Delivers)
    (hremaining : rb.remainingAt rb.point = rb.replay) : rb.cookieMatched.Delivers := by
  apply h.goToUnlessEmpty
  rw [hremaining]
  split
  · rfl
  · next hbegin =>
      rw [replay, if_neg hbegin]
      rfl

end Rebuffer

namespace BufferThread

variable {τ : Type}

def task (s : BufferThread τ) : Option String × List Data × List Data × Bool :=
  (s.trackBegin, s.headers, s.buffers, s.trackEnd)

/-- A rebuffer works on what the thread has kept, and delivers it. -/
structure Replaying (s : BufferThread τ) : Prop where
  current : s.Current
  call : ∀ rb, s.rebuffer = some rb → rb.task = s.task ∧ rb.Delivers

section Run

variable {s s' : BufferThread τ} {rb : Rebuffer}

theorem replaying_inRebuffer (h : s.Current) (htask : rb.task = s.task) (hrb : rb.Delivers) :
    (s.inRebuffer rb).Replaying where
  current := h.of_kept rfl
  call := by
    rintro rb' ⟨⟩
    exact ⟨htask, hrb⟩

variable {failed : List Player} {misses : ℕ} {input : BufferInput τ}

theorem replaying_sendPlayers (h : s.Current) (htask : rb.task = s.task) (hrb : rb.Delivers)
    {x : Send} {next : RebufferPoint}
    (hremaining : rb.remainingAt rb.point =
      (if x.isData then [x] else []) ++ rb.remainingAt next) :
    (s.sendPlayers rb x failed next).Replaying where
  current := h.of_kept rfl
  call := by
    rintro rb' ⟨⟩
    exact ⟨htask, hrb.send hremaining⟩

section

variable (h : s.Replaying)
include h

theorem Replaying.halt : s.halt.Replaying :=
  ⟨h.current.of_kept rfl, h.call⟩

variable (hcall : s.rebuffer = some rb)
include hcall

theorem Replaying.runRebuffer (hs : s.runRebuffer rb failed = some s') : s'.Replaying := by
  obtain ⟨htask, hrb⟩ := h.call rb hcall
  rw [BufferThread.runRebuffer] at hs
  split at hs
  · next notStopped hp =>
      cases hs
      refine replaying_inRebuffer h.current htask ((hrb.keep _).goToUnlessEmpty ?_)
      change rb.replay = rb.remainingAt rb.point
      rw [hp]
      rfl
  · cases hs
  · cases hs
  · next misses hp =>
      cases hs
      refine replaying_inRebuffer h.current htask (hrb.goTo ?_)
      rw [hp]
      split <;> rfl
  · cases hs
  · next hp =>
      split at hs
      · cases hs
      · next audioType hbegin =>
          split at hs
          · cases hs
            exact h.halt
          · cases hs
            apply replaying_sendPlayers h.current htask hrb
            rw [hp]
            simp [Rebuffer.remainingAt, Rebuffer.replay, hbegin, Send.isData]
  · next hp =>
      cases hs
      refine replaying_inRebuffer h.current htask (hrb.goTo ?_)
      rw [hp]
      rfl
  · next data left hp =>
      cases hs
      apply replaying_sendPlayers h.current htask hrb
      rw [hp]
      rfl
  · next misses hp =>
      split at hs
      · next hend =>
          cases hs
          apply replaying_sendPlayers h.current htask hrb
          simp [Rebuffer.remainingAt, hp, Send.isData, replayOf, hend]
      · next hend =>
          cases hs
          refine replaying_inRebuffer h.current htask (hrb.goTo ?_)
          simp [Rebuffer.remainingAt, hp, replayOf, hend]
  · next misses data left hp =>
      split at hs
      · cases hs
        apply replaying_sendPlayers h.current htask hrb
        rw [hp]
        rfl
      · cases hs
        refine replaying_inRebuffer h.current htask (hrb.goTo ?_)
        rw [hp]
        rfl
  · cases hs
  · cases hs
    exact ⟨h.current.of_kept rfl, fun rb' hrb' => by cases hrb'⟩

/-- A wait drops players and goes on, or is over; it sends nothing. -/
theorem Replaying.cookieStates (hp : rb.point = .cookieWait misses)
    (matched nonMatched : List String) :
    (s.cookieStates rb misses matched nonMatched).Replaying := by
  obtain ⟨htask, hrb⟩ := h.call rb hcall
  have hall : rb.remainingAt rb.point = rb.replay := by
    rw [hp]
    rfl
  rw [BufferThread.cookieStates]
  split
  · exact replaying_inRebuffer h.current htask (hrb.cookieMatched hall)
  · dsimp only
    split_ifs with hempty <;> refine replaying_inRebuffer (h.current.of_kept rfl) htask ?_
    · exact Rebuffer.delivers_of_isEmpty hempty
    · exact ((hrb.keep _).keep _).cookieMatched hall
    · exact (hrb.keep _).goTo hall.symm

theorem Replaying.trackBeginStates (hp : rb.point = .trackBeginWait misses)
    (matched : List String) : (s.trackBeginStates rb misses matched).Replaying := by
  obtain ⟨htask, hrb⟩ := h.call rb hcall
  have hall : rb.remainingAt rb.point = rb.replay := by
    rw [hp]
    rfl
  simp only [BufferThread.trackBeginStates]
  split_ifs with hempty <;> refine replaying_inRebuffer (h.current.of_kept rfl) htask ?_
  · exact Rebuffer.delivers_of_isEmpty hempty
  · exact ((hrb.keep _).keep _).goToUnlessEmpty hall.symm
  · exact (hrb.keep _).goTo hall.symm

theorem Replaying.bufferStates {data : Data} {left : List Data}
    (hp : rb.point = .bufferWait misses data left) (matched : List String) :
    (s.bufferStates rb misses data left matched).Replaying := by
  obtain ⟨htask, hrb⟩ := h.call rb hcall
  have hleft : rb.remainingAt (.buffers (misses + 1) (data :: left)) =
      rb.remainingAt rb.point := by
    rw [hp]
    rfl
  simp only [BufferThread.bufferStates]
  split_ifs with hempty <;> refine replaying_inRebuffer (h.current.of_kept rfl) htask ?_
  · exact Rebuffer.delivers_of_isEmpty hempty
  · exact ((hrb.keep _).keep _).goToUnlessEmpty hleft
  · exact (hrb.keep _).goTo hleft

theorem Replaying.rebufferStates {matched nonMatched : List String}
    (hs : s.rebufferStates rb matched nonMatched = some s') : s'.Replaying := by
  rw [BufferThread.rebufferStates] at hs
  split at hs
  · next misses hp =>
      cases hs
      exact h.cookieStates hcall hp matched nonMatched
  · next misses hp =>
      cases hs
      exact h.trackBeginStates hcall hp matched
  · next misses data left hp =>
      cases hs
      exact h.bufferStates hcall hp matched
  · cases hs

/-- Stopping and starting a player is not data. -/
theorem Replaying.stopResult {pending : List Player}
    (hpoint : rb.point = .stopping pending failed) (p : Player) (stopped started : Bool) :
    (s.stopResult rb pending failed p stopped started).Replaying := by
  obtain ⟨htask, hrb⟩ := h.call rb hcall
  have hgo : ∀ notStopped, (rb.goTo (.stopping (pending.erase p) notStopped)).Delivers := by
    intro notStopped
    apply hrb.goTo
    rw [hpoint]
    rfl
  simp only [BufferThread.stopResult]
  split
  · refine ⟨h.current.of_kept rfl, ?_⟩
    rintro rb' ⟨⟩
    exact ⟨htask, (hgo _).control p rfl⟩
  · exact replaying_inRebuffer h.current htask (hgo _)

theorem Replaying.rebufferStep (hs : s.rebufferStep rb input = some s') : s'.Replaying := by
  cases input with
  | run failed => exact h.runRebuffer hcall hs
  | playerStates matched nonMatched => exact h.rebufferStates hcall hs
  | stopResult p stopped started =>
    simp only [BufferThread.rebufferStep] at hs
    split at hs
    · next pending failed hpoint =>
        split at hs
        · cases hs
          exact h.stopResult hcall hpoint p stopped started
        · cases hs
    · cases hs
  | report p state =>
    simp only [BufferThread.rebufferStep] at hs
    split at hs
    · cases hs
      exact ⟨h.current.of_kept rfl, h.call⟩
    · cases hs
  | players | streamEvent | request => cases hs

end

/-- A rebuffer starts with everything still to send. -/
theorem replaying_startRebuffer (h : s.Current) (ps : PlayerSet) (cookie : ℤ) :
    (s.startRebuffer ps cookie).Replaying := by
  refine ⟨h.of_kept rfl, ?_⟩
  rintro rb ⟨⟩
  refine ⟨rfl, ?_⟩
  intro p _
  simp [Rebuffer.dataSent, Rebuffer.remainingAt, Rebuffer.replay, List.filter_map,
    Function.comp_def, Send.isData]

theorem Replaying.listen (h : s.Replaying) (hcall : s.rebuffer = none)
    (hok : s.HeaderComplete input) (hs : s.listen input = some s') : s'.Replaying := by
  have hidle : ∀ u : BufferThread τ, u.Current → u.rebuffer = none → u.Replaying := by
    intro u hu hnone
    refine ⟨hu, ?_⟩
    intro rb hrb
    rw [hnone] at hrb
    cases hrb
  cases input with
  | players ps | report p state =>
    cases hs
    exact hidle _ (h.current.of_kept rfl) hcall
  | playerStates matched nonMatched =>
    cases hs
    refine hidle _ (h.current.handlePlayerStates matched) ?_
    rw [BufferThread.handlePlayerStates]
    split
    · exact hcall
    · split
      · exact hcall
      · dsimp only
        split <;> exact hcall
  | streamEvent e =>
    cases hs
    refine hidle _ (h.current.handleStreamEvent hok) ?_
    cases e with
    | trackBegin contentLength trackInfo audioType =>
      simp only [BufferThread.handleStreamEvent]
      split <;> exact hcall
    | buffer data =>
      simp only [BufferThread.handleStreamEvent, BufferThread.keepBuffer]
      split <;> exact hcall
    | waitingForAcquire | acquireStarted | acquireDone | trackEnd | flush | rebuffer =>
      exact hcall
  | request ps cookie =>
    cases hs
    exact replaying_startRebuffer h.current ps cookie
  | stopResult | run => cases hs

theorem Replaying.step (h : s.Replaying) (hok : s.HeaderComplete input)
    (hs : s.step input = some s') : s'.Replaying := by
  rw [BufferThread.step] at hs
  split at hs
  · cases hs
  · split at hs
    · next hcall => exact h.listen hcall hok hs
    · next rb hcall => exact h.rebufferStep hcall hs

end Run

end BufferThread

open BufferThread

/-- When `do_rebuffer` returns, each player that is left has got the replay of
the current track, in every run in which no header is cut short by a track of
another type. -/
theorem replayLaw_of_headerComplete {τ : Type} (s : BufferThread τ) (rb : Rebuffer) (p : Player)
    (h : (bufferThread τ).ReachableUnder HeaderComplete s) (hcall : s.rebuffer = some rb)
    (hdone : rb.point = .done) (hp : p ∈ rb.players) :
    ReplayLaw (Track.current s.history) (rb.dataSent p) := by
  have hreplaying : s.Replaying := by
    refine h.invariant ⟨rfl, nofun⟩ ?_
    exact fun _ _ _ hI hok hs => hI.step hok hs
  obtain ⟨htask, hdelivers⟩ := hreplaying.call rb hcall
  simp only [Rebuffer.task, BufferThread.task, Prod.mk.injEq] at htask
  obtain ⟨hbegin, hheaders, hbuffers, hend⟩ := htask
  have hsent : rb.dataSent p = rb.replay := by
    simpa [hdone, Rebuffer.remainingAt] using hdelivers p hp
  have hcurrent := hreplaying.current
  rw [Current] at hcurrent
  rw [hsent, Rebuffer.replay, hbegin, hheaders, hbuffers, hend]
  cases htrack : Track.current s.history with
  | none =>
    rw [htrack] at hcurrent
    rw [hcurrent]
    rfl
  | some t =>
    rw [htrack] at hcurrent
    refine ⟨s.buffers, hcurrent.buffers, ?_⟩
    rw [hcurrent.trackBegin, hcurrent.headers, hcurrent.trackEnd]
    rfl

/-- The events `es`, and a rebuffer to one player that always has room, up to
`blocks` blocks after the cookie has matched. -/
def replayInputs (es : List (StreamEvent Unit)) (blocks : ℕ) : List (BufferInput Unit) :=
  es.map .streamEvent ++
    [.request onePlayer 1, .stopResult ⟨"p", 0⟩ true true, .run [],
      .report ⟨"p", 0⟩ { canStBegin := true, streambufFree := 1000000 },
      .playerStates ["p"] []] ++
    List.replicate blocks (.run [])

/-- The header of an `'o'` track and its end are replayed. -/
theorem replayLaw_header :
    ∃ s rb, (bufferThread Unit).runFrom .init
        (replayInputs [.trackBegin 0 none "o", .buffer [1], .trackEnd] 5) = some s ∧
      s.rebuffer = some rb ∧ rb.point = .done ∧
      rb.dataSent ⟨"p", 0⟩ = [.buffer [1], .trackEnd] ∧
      ReplayLaw (Track.current s.history) (rb.dataSent ⟨"p", 0⟩) := by
  refine ⟨_, _, rfl, rfl, rfl, by decide,
    replayLaw_of_headerComplete _ _ _ ?_ rfl rfl (by decide)⟩
  exact System.ReachableUnder.runFrom
    (replayInputs [.trackBegin 0 none "o", .buffer [1], .trackEnd] 5) .init (by decide) rfl

/-- An `'o'` track without data leaves the header to the next track, whose first
buffer is then replayed although it was flushed. -/
theorem flushed_buffer_replayed :
    ∃ s rb p, (bufferThread Unit).Reachable s ∧ s.rebuffer = some rb ∧ rb.point = .done ∧
      p ∈ rb.players ∧ ¬ReplayLaw (Track.current s.history) (rb.dataSent p) := by
  refine ⟨_, _, ⟨"p", 0⟩, System.Reachable.runFrom (replayInputs [.trackBegin 0 none "o",
    .trackBegin 0 none "m", .buffer [1], .flush, .buffer [2]] 6) .init rfl, rfl, rfl,
    by decide, ?_⟩
  decide

end BeepMusic.Distributor
