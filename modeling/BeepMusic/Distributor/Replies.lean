import BeepMusic.Distributor.Stream
import BeepMusic.Lib.Ledger

/-!
Requests and replies of the stream thread. Every request it has taken is in its
hand, answered, or back in its channel, and what is in its hand is determined by
the program point. The same invariant says what the top of the stream loop is
reached with.
-/

namespace BeepMusic.Distributor

open Lib List

/-- A request that can be held up by full players. -/
def Request.canBlock {τ : Type} (r : Request τ) : Bool :=
  match r.method with
  | .trackBegin _ _ _ | .buffer _ => true
  | _ => false

theorem Request.method_of_canBlock {τ : Type} {r : Request τ} (h : r.canBlock = true) :
    (∃ contentLength trackInfo audioType,
      r.method = .trackBegin contentLength trackInfo audioType) ∨
        ∃ data, r.method = .buffer data := by
  rw [canBlock] at h
  split at h
  · next hmethod => exact .inl ⟨_, _, _, hmethod⟩
  · next hmethod => exact .inr ⟨_, hmethod⟩
  · cases h

theorem Request.method_of_isAcquire {τ : Type} {r : Request τ} (h : r.isAcquire = true) :
    ∃ app, r.method = .acquire app := by
  rw [isAcquire] at h
  split at h
  · next hmethod => exact ⟨_, hmethod⟩
  · cases h

/-- The part of the thread that requests and replies go through. -/
structure Desk (τ : Type) where
  issued : ℕ
  answered : List ℕ
  taken : List ℕ
  acquires : List (Request τ)
  commands : List (Request τ)

namespace Desk

variable {τ : Type}

def answer (d : Desk τ) (r : Request τ) : Desk τ := { d with answered := d.answered ++ [r.req] }

def takeAcquire (d : Desk τ) (r : Request τ) (rest : List (Request τ)) : Desk τ :=
  { d with acquires := rest, taken := d.taken ++ [r.req] }

def takeCommand (d : Desk τ) (r : Request τ) (rest : List (Request τ)) : Desk τ :=
  { d with commands := rest, taken := d.taken ++ [r.req] }

/-- The books when the thread has the requests `l` in its hand. -/
structure Books (d : Desk τ) (l : List (Request τ)) : Prop where
  balanced : Balanced d.issued d.answered ((l ++ d.acquires ++ d.commands).map Request.req)
  taken : ∀ r ∈ d.taken, r < d.issued ∧ r ∉ d.acquires.map Request.req
  acquires : ∀ r ∈ d.acquires, r.isAcquire = true

variable {d : Desk τ} {l : List (Request τ)} {r : Request τ} {rest : List (Request τ)}

theorem Books.answer (h : d.Books (r :: l)) : (d.answer r).Books l :=
  ⟨h.balanced.answer, h.taken, h.acquires⟩

/-- A request in the hand has been issued and is not in the channel any more. -/
theorem in_hand_of_balanced {acquires commands : List (Request τ)} {issued : ℕ}
    {answered : List ℕ}
    (h : Balanced issued answered (((r :: l) ++ acquires ++ commands).map Request.req)) :
    r.req < issued ∧ r.req ∉ acquires.map Request.req := by
  have hnodup := h.nodup_waiting
  simp only [map_append, map_cons, cons_append, nodup_cons,
    mem_append, not_or] at hnodup
  exact ⟨h.lt_of_mem_waiting (by simp), hnodup.1.1.2⟩

theorem Books.takeAcquire (h : d.Books l) (hch : d.acquires = r :: rest) :
    (d.takeAcquire r rest).Books (r :: l) := by
  have hperm : (((r :: l) ++ rest ++ d.commands).map Request.req).Perm
      ((l ++ d.acquires ++ d.commands).map Request.req) := by
    rw [hch]
    apply List.Perm.map
    apply List.Perm.append_right
    exact perm_middle.symm
  have hbalanced := h.balanced.perm hperm
  refine ⟨hbalanced, ?_, ?_⟩
  · intro q hq
    simp only [Desk.takeAcquire, mem_append, mem_singleton] at hq
    rcases hq with hq | rfl
    · obtain ⟨hlt, hnot⟩ := h.taken q hq
      refine ⟨hlt, ?_⟩
      rw [hch, map_cons, mem_cons] at hnot
      exact fun hmem => hnot (.inr hmem)
    · exact in_hand_of_balanced hbalanced
  · intro q hq
    exact h.acquires q (hch ▸ mem_cons_of_mem _ hq)

theorem Books.takeCommand (h : d.Books l) (hch : d.commands = r :: rest) :
    (d.takeCommand r rest).Books (r :: l) := by
  have hperm : (((r :: l) ++ d.acquires ++ rest).map Request.req).Perm
      ((l ++ d.acquires ++ d.commands).map Request.req) := by
    rw [hch]
    apply List.Perm.map
    exact perm_middle.symm
  have hbalanced := h.balanced.perm hperm
  refine ⟨hbalanced, ?_, h.acquires⟩
  intro q hq
  simp only [Desk.takeCommand, mem_append, mem_singleton] at hq
  rcases hq with hq | rfl
  · exact h.taken q hq
  · exact in_hand_of_balanced hbalanced

theorem Books.putBack (h : d.Books (r :: l)) :
    { d with commands := d.commands ++ [r] }.Books l where
  balanced := by
    refine h.balanced.perm ?_
    apply List.Perm.map
    rw [← append_assoc]
    exact perm_append_singleton _ _
  taken := h.taken
  acquires := h.acquires

theorem Books.issue {d' : Desk τ} (h : d.Books l) (hissued : d'.issued = d.issued + 1)
    (hanswered : d'.answered = d.answered) (htaken : d'.taken = d.taken)
    (hacquires : ∀ q ∈ d'.acquires, q ∈ d.acquires ∨ q.isAcquire = true ∧ q.req = d.issued)
    (hperm : ((l ++ d'.acquires ++ d'.commands).map Request.req).Perm
      (d.issued :: (l ++ d.acquires ++ d.commands).map Request.req)) : d'.Books l where
  balanced := by
    rw [hissued, hanswered]
    exact h.balanced.issue.perm hperm
  taken := by
    intro q hq
    rw [htaken] at hq
    obtain ⟨hlt, hnot⟩ := h.taken q hq
    refine ⟨by omega, ?_⟩
    intro hmem
    obtain ⟨a, ha, rfl⟩ := List.mem_map.mp hmem
    rcases hacquires a ha with hold | ⟨-, hnew⟩
    · exact hnot (List.mem_map_of_mem hold)
    · omega
  acquires := by
    intro q hq
    rcases hacquires q hq with hold | ⟨hnew, -⟩
    · exact h.acquires q hold
    · exact hnew

end Desk

/-- The part of the thread that says whom it streams to. -/
structure Crew where
  players : PlayerSet
  needRebuffer : Bool
  rebufferPlayers : PlayerSet

/-- What holds in the track buffering loop. -/
structure Crew.Streaming (c : Crew) : Prop where
  players : c.players.isEmpty = false
  rebuffer : c.needRebuffer = true → c.rebufferPlayers.isEmpty = false

namespace StreamThread

variable {τ : Type} (s : StreamThread τ)

def desk : Desk τ where
  issued := s.issued
  answered := s.replies.map Prod.fst
  taken := s.taken
  acquires := s.acquireCh
  commands := s.streamCommandCh

def crew : Crew := ⟨s.players, s.needRebuffer, s.rebufferPlayers⟩

section Frame

variable (s : StreamThread τ) (r : Request τ) (rest : List (Request τ))

@[simp] theorem desk_reply (answer : Reply) : (s.reply r answer).desk = s.desk.answer r := by
  simp [desk, reply, Desk.answer]
@[simp] theorem crew_reply (answer : Reply) : (s.reply r answer).crew = s.crew := rfl
@[simp] theorem desk_putStreamEvent (e : StreamEvent τ) :
    (s.putStreamEvent e).desk = s.desk := rfl
@[simp] theorem crew_putStreamEvent (e : StreamEvent τ) :
    (s.putStreamEvent e).crew = s.crew := rfl
@[simp] theorem desk_sendAll (x : Send) : (s.sendAll x).desk = s.desk := rfl
@[simp] theorem crew_sendAll (x : Send) : (s.sendAll x).crew = s.crew := rfl
@[simp] theorem desk_logEffect : (s.logEffect r).desk = s.desk := rfl
@[simp] theorem crew_logEffect : (s.logEffect r).crew = s.crew := rfl
@[simp] theorem desk_takePlayers (ps : PlayerSet) : (s.takePlayers ps).desk = s.desk := rfl
@[simp] theorem desk_takeAcquire :
    (s.takeAcquire r rest).desk = s.desk.takeAcquire r rest := rfl
@[simp] theorem desk_takeCommand :
    (s.takeCommand r rest).desk = s.desk.takeCommand r rest := rfl
@[simp] theorem desk_adoptPlayers (ps : PlayerSet) : (s.adoptPlayers ps).desk = s.desk := by
  rw [adoptPlayers]
  split <;> rfl

end Frame

/-- The requests the thread has taken and still has to answer. -/
def inHand : List (Request τ) :=
  match s.point with
  | .top => if s.players.isEmpty then [] else s.streamCommand.toList
  | .check | .stopping _ => s.streamCommand.toList
  | .blocked r _ _ => [r]
  | .waitAcquire | .trackLoop | .rebuffering _ | .exited => []

/-- `stream_command` is an acquire. -/
def AcquireReady : Prop :=
  ∃ r, s.streamCommand = some r ∧ r.isAcquire = true

/-- What holds at each program point. -/
def Placed : Prop :=
  match s.point with
  | .top => s.players.isEmpty = false → s.AcquireReady
  | .check | .stopping _ => s.players.isEmpty = false ∧ s.AcquireReady
  | .trackLoop => s.crew.Streaming
  | .blocked r newPlayers _ =>
    s.crew.Streaming ∧ r.canBlock = true ∧ ∀ ps ∈ newPlayers, ps.isEmpty = false
  | .rebuffering _ => s.players.isEmpty = false
  | .waitAcquire | .exited => True

/-- The books are right, with the requests in hand that belong to the program
point, unless the process has exited. -/
structure Accounted (s : StreamThread τ) : Prop where
  books : ∃ l, s.desk.Books l ∧ (s.point ≠ .exited → l = s.inHand)
  placed : s.Placed

/-- The request that a result carries to the top of the stream loop. -/
def carried : ThreadResult τ → List (Request τ)
  | .acquire command => [command]
  | _ => []

section Control

variable {s : StreamThread τ} {r : Request τ} {result : ThreadResult τ}
  {newPlayers : Option PlayerSet}

theorem accounted_of_inHand (hbooks : s.desk.Books s.inHand) (hplaced : s.Placed) :
    s.Accounted :=
  ⟨⟨s.inHand, hbooks, fun _ => rfl⟩, hplaced⟩

theorem Accounted.inHand (h : s.Accounted) (hpoint : s.point ≠ .exited) :
    s.desk.Books s.inHand := by
  obtain ⟨l, hbooks, hl⟩ := h.books
  exact hl hpoint ▸ hbooks

/-- A command that is finished is not waited for. -/
theorem point_handleResult (r : Request τ) (newPlayers : Option PlayerSet) (waiting : Bool) :
    (s.handleResult result).point ≠ .blocked r newPlayers waiting := by
  cases result with
  | trackEnd =>
    simp only [handleResult]
    split <;> simp [startRebuffer, goTo]
  | ok | acquire | flush | trackBegin | rebufferOk =>
    simp [handleResult, startRebuffer, doFlush, goTo]

theorem point_finishCommand (r : Request τ) (ps : Option PlayerSet) (waiting : Bool) :
    (s.finishCommand newPlayers result).point ≠ .blocked r ps waiting := by
  cases newPlayers with
  | none => exact point_handleResult r ps waiting
  | some qs =>
    simp only [finishCommand]
    split
    · simp
    · exact point_handleResult r ps waiting

theorem streaming_adoptPlayers (h : s.crew.Streaming) {ps : PlayerSet}
    (hps : ps.isEmpty = false) : (s.adoptPlayers ps).crew.Streaming := by
  rw [adoptPlayers]
  split
  · exact ⟨h.players, fun _ => hps⟩
  · exact ⟨hps, nofun⟩

/-- A rebuffer is only started with players to rebuffer to. -/
theorem accounted_startRebuffer (hbooks : s.desk.Books [])
    (h : s.rebufferPlayers.isEmpty = false) : s.startRebuffer.Accounted :=
  accounted_of_inHand hbooks h

theorem accounted_handleResult (hbooks : s.desk.Books (carried result)) (h : s.crew.Streaming)
    (hrebuffer : result = .rebufferOk → s.needRebuffer = true)
    (hacquire : ∀ a ∈ carried result, a.isAcquire = true) :
    (s.handleResult result).Accounted := by
  cases result with
  | ok | trackBegin | flush => exact accounted_of_inHand hbooks h
  | rebufferOk => exact accounted_startRebuffer hbooks (h.rebuffer (hrebuffer rfl))
  | trackEnd =>
    simp only [handleResult]
    split
    · next hneed => exact accounted_startRebuffer hbooks (h.rebuffer hneed)
    · exact accounted_of_inHand hbooks h
  | acquire a =>
    have hplayers :
        (if s.needRebuffer then s.rebufferPlayers else s.players).isEmpty = false := by
      split
      · next hneed => exact h.rebuffer hneed
      · exact h.players
    have hhand : (s.handleResult (.acquire a)).inHand = [a] := by
      simp [handleResult, StreamThread.inHand, hplayers]
    apply accounted_of_inHand
    · rw [hhand]
      exact hbooks
    · exact fun _ => ⟨a, rfl, hacquire a (mem_singleton_self a)⟩

/-- A result that comes with an empty player set carries no request. -/
theorem accounted_finishCommand (hbooks : s.desk.Books (carried result)) (h : s.crew.Streaming)
    (hrebuffer : result = .rebufferOk → s.needRebuffer = true ∧ newPlayers = none)
    (hacquire : ∀ a ∈ carried result, a.isAcquire = true)
    (hempty : ∀ ps ∈ newPlayers, ps.isEmpty = true → carried result = []) :
    (s.finishCommand newPlayers result).Accounted := by
  cases newPlayers with
  | none => exact accounted_handleResult hbooks h (fun hr => (hrebuffer hr).1) hacquire
  | some ps =>
    simp only [finishCommand]
    split
    · next hps =>
        rw [hempty ps rfl hps] at hbooks
        exact accounted_of_inHand hbooks nofun
    · next hps =>
        have hps : ps.isEmpty = false := by simpa using hps
        refine accounted_handleResult ?_ (streaming_adoptPlayers h hps) ?_ hacquire
        · simpa using hbooks
        · intro hr
          cases (hrebuffer hr).2

theorem accounted_finish (hbooks : s.desk.Books []) (h : s.crew.Streaming)
    (hcarried : carried result = []) (hresult : result ≠ .rebufferOk) :
    (s.finishCommand newPlayers result).Accounted := by
  refine accounted_finishCommand (hcarried ▸ hbooks) h (fun hr => absurd hr hresult) ?_ ?_
  · simp [hcarried]
  · exact fun _ _ _ => hcarried

variable (hbooks : s.desk.Books [r])
include hbooks

theorem accounted_answerCan (h : s.crew.Streaming) (what : String) (immediately : Bool)
    (test : PlayerState → Bool) : (s.answerCan r what immediately test).Accounted := by
  have hanswered : ∀ answer, (s.reply r answer).desk.Books [] := by
    intro answer
    simpa using hbooks.answer
  rw [answerCan]
  split
  · next hneed =>
      refine accounted_finishCommand (hanswered _) h (fun _ => ⟨hneed, rfl⟩) ?_ ?_
      · simp [carried]
      · simp
  · split
    all_goals exact accounted_finish (hanswered _) h rfl (by simp)

theorem accounted_sendCommand (h : s.crew.Streaming) (hr : r.canBlock = true) :
    (s.sendCommand r newPlayers).Accounted := by
  obtain ⟨_, _, _, hmethod⟩ | ⟨_, hmethod⟩ := r.method_of_canBlock hr
  · simp only [sendCommand, hmethod]
    split
    · exact ⟨⟨[r], hbooks, fun hpoint => absurd rfl hpoint⟩, trivial⟩
    · exact accounted_finish (by simpa using hbooks.answer) (by simpa using h) rfl (by simp)
  · simp only [sendCommand, hmethod]
    exact accounted_finish (by simpa using hbooks.answer) (by simpa using h) rfl (by simp)

theorem accounted_blocked (h : s.crew.Streaming) (hr : r.canBlock = true)
    (hnew : ∀ ps ∈ newPlayers, ps.isEmpty = false) (waiting : Bool) :
    (s.goTo (.blocked r newPlayers waiting)).Accounted :=
  accounted_of_inHand hbooks ⟨h, hr, hnew⟩

theorem accounted_handleStreamCommand (h : s.crew.Streaming) :
    (s.handleStreamCommand r).Accounted := by
  rw [handleStreamCommand]
  split
  · next hacquire =>
      have hcarried : s.desk.Books (carried (.acquire r)) := hbooks
      refine accounted_finishCommand hcarried h nofun ?_ ?_
      · simpa [carried] using hacquire
      · simp
  have hanswered : ∀ answer, (s.reply r answer).desk.Books [] := by
    intro answer
    simpa using hbooks.answer
  split
  · exact accounted_finish (hanswered _) h rfl (by simp)
  split
  · exact accounted_answerCan hbooks h _ _ _
  · next hmethod =>
      have hblock : r.canBlock = true := by simp [Request.canBlock, hmethod]
      dsimp only
      split
      · exact accounted_sendCommand (by simpa using hbooks) (by simpa using h) hblock
      · apply accounted_blocked
        · simpa using hbooks
        · simpa using h
        · exact hblock
        · simp
  · exact accounted_answerCan hbooks h _ _ _
  · next hmethod =>
      exact accounted_blocked hbooks h (by simp [Request.canBlock, hmethod]) (by simp) false
  · exact accounted_finish (by simpa using hbooks.answer) (by simpa using h) rfl (by simp)
  · exact accounted_finish (by simpa using hbooks.answer) (by simpa using h) rfl (by simp)
  · exact accounted_finish (hanswered _) h rfl (by simp)
  · exact accounted_finish (hanswered _) h rfl (by simp)

end Control

section Run

variable {s s' : StreamThread τ}

theorem Accounted.runTop (h : s.Accounted) (hpoint : s.point = .top) : s.runTop.Accounted := by
  have hbooks := h.inHand (by simp [hpoint])
  have hplaced := h.placed
  simp only [StreamThread.inHand, Placed, hpoint] at hbooks hplaced
  rw [StreamThread.runTop]
  split
  · next hempty =>
      rw [if_pos hempty] at hbooks
      exact accounted_of_inHand hbooks trivial
  · next hempty =>
      rw [if_neg hempty] at hbooks
      have hempty : s.players.isEmpty = false := by simpa using hempty
      exact accounted_of_inHand hbooks ⟨hempty, hplaced hempty⟩

/-- Nothing is in hand at the two outer waits and during a rebuffer. -/
theorem Accounted.books_nil (h : s.Accounted) (hexited : s.point ≠ .exited)
    (hhand : s.inHand = []) : s.desk.Books [] :=
  hhand ▸ h.inHand hexited

theorem Accounted.takeDebug (h : s.Accounted) (hs : s.takeDebug = some s') : s'.Accounted := by
  rw [StreamThread.takeDebug] at hs
  split at hs
  · cases hs
    exact { h with }
  · cases hs

theorem accounted_of_waitAcquire (hbooks : s.desk.Books []) (hpoint : s.point = .waitAcquire) :
    s.Accounted := by
  refine accounted_of_inHand ?_ (by simp [Placed, hpoint])
  simpa [StreamThread.inHand, hpoint] using hbooks

section

variable (h : s.Accounted)
include h

/-- Every outcome but the acquire with players comes back to the wait. -/
theorem Accounted.runWaitAcquire (hpoint : s.point = .waitAcquire)
    (hs : s.runWaitAcquire = some s') : s'.Accounted := by
  have hbooks : s.desk.Books [] :=
    h.books_nil (by simp [hpoint]) (by simp [StreamThread.inHand, hpoint])
  rw [StreamThread.runWaitAcquire] at hs
  split at hs
  · cases hs
    exact accounted_of_waitAcquire hbooks hpoint
  · next r rest _ hch =>
      have htaken := hbooks.takeAcquire hch
      dsimp only at hs
      split at hs
      · cases hs
        refine accounted_of_waitAcquire ?_ hpoint
        rw [desk_reply]
        exact htaken.answer
      · next hplayers =>
          cases hs
          have hplayers : s.players.isEmpty = false := by simpa [takeAcquire] using hplayers
          refine accounted_of_inHand htaken ⟨hplayers, r, rfl, ?_⟩
          exact hbooks.acquires r (by simp [desk, hch])
  · next r rest _ _ hch =>
      cases hs
      exact accounted_of_waitAcquire (by simpa using (hbooks.takeCommand hch).answer) hpoint
  · exact h.takeDebug hs

/-- From the check until the players have stopped the acquire is in hand. -/
theorem Accounted.acquiring (hpoint : s.point = .check ∨ ∃ pending, s.point = .stopping pending) :
    s.players.isEmpty = false ∧ s.AcquireReady ∧ s.desk.Books s.streamCommand.toList := by
  have hplaced := h.placed
  obtain hpoint | ⟨pending, hpoint⟩ := hpoint
  all_goals
    have hbooks := h.inHand (by simp [hpoint])
    simp only [StreamThread.inHand, Placed, hpoint] at hbooks hplaced
    exact ⟨hplaced.1, hplaced.2, hbooks⟩

theorem Accounted.runCheck (hpoint : s.point = .check) : s.runCheck.Accounted := by
  obtain ⟨hplayers, hready, hbooks⟩ := h.acquiring (.inl hpoint)
  rw [StreamThread.runCheck]
  split
  · exact accounted_of_inHand hbooks ⟨hplayers, hready⟩
  · exact ⟨⟨_, hbooks, fun hexit => absurd rfl hexit⟩, trivial⟩

theorem Accounted.stopResult {pending : List Player} (hpoint : s.point = .stopping pending)
    (p : Player) (ok : Bool) : (s.stopResult pending p ok).Accounted := by
  obtain ⟨hplayers, hready, hbooks⟩ := h.acquiring (.inr ⟨pending, hpoint⟩)
  rw [StreamThread.stopResult]
  split <;> exact accounted_of_inHand hbooks ⟨hplayers, hready⟩

/-- The acquire is answered, and the session begins without a rebuffer. -/
theorem Accounted.finishAcquire (hpoint : s.point = .stopping []) (token : ℤ) :
    (s.finishAcquire token).Accounted := by
  obtain ⟨hplayers, ⟨r, hcommand, -⟩, hbooks⟩ := h.acquiring (.inr ⟨[], hpoint⟩)
  rw [hcommand] at hbooks
  have hstreaming : (s.finishAcquire token).crew.Streaming := by
    simp only [StreamThread.finishAcquire, putStreamEvent, hcommand]
    exact ⟨hplayers, nofun⟩
  refine accounted_of_inHand ?_ hstreaming
  simp only [StreamThread.finishAcquire, putStreamEvent, hcommand]
  have hanswered : (s.reply r (.success (some token))).desk.Books [] := by
    simpa using hbooks.answer
  exact hanswered

theorem Accounted.runTrackLoop (hpoint : s.point = .trackLoop) (hs : s.runTrackLoop = some s') :
    s'.Accounted := by
  have hbooks : s.desk.Books [] :=
    h.books_nil (by simp [hpoint]) (by simp [StreamThread.inHand, hpoint])
  have hstreaming : s.crew.Streaming := by simpa [Placed, hpoint] using h.placed
  rw [StreamThread.runTrackLoop] at hs
  split at hs
  · next ps _ =>
      dsimp only at hs
      split at hs
      · cases hs
        exact accounted_of_inHand hbooks nofun
      · next hps =>
          have hps : ps.isEmpty = false := by simpa using hps
          have hadopted := streaming_adoptPlayers (s := s.takePlayers ps) hstreaming hps
          split at hs
          · next hneed =>
              cases hs
              refine accounted_startRebuffer (by simpa using hbooks) (hadopted.rebuffer ?_)
              exact (Bool.and_eq_true_iff.mp hneed).1
          · cases hs
            have hpoint' : ((s.takePlayers ps).adoptPlayers ps).point = .trackLoop := by
              rw [adoptPlayers]
              split <;> exact hpoint
            refine accounted_of_inHand ?_ (by simpa [Placed, hpoint'] using hadopted)
            simpa [StreamThread.inHand, hpoint'] using hbooks
  · next r rest _ hch =>
      cases hs
      exact accounted_handleStreamCommand (by simpa using hbooks.takeAcquire hch) hstreaming
  · next r rest _ _ hch =>
      cases hs
      exact accounted_handleStreamCommand (by simpa using hbooks.takeCommand hch) hstreaming
  · exact h.takeDebug hs

end

variable {r : Request τ} {newPlayers : Option PlayerSet}

theorem Accounted.blocked {waiting : Bool} (h : s.Accounted)
    (hpoint : s.point = .blocked r newPlayers waiting) :
    s.desk.Books [r] ∧ s.crew.Streaming ∧ r.canBlock = true ∧
      ∀ ps ∈ newPlayers, ps.isEmpty = false := by
  have hbooks := h.inHand (by simp [hpoint])
  have hplaced := h.placed
  simp only [StreamThread.inHand, Placed, hpoint] at hbooks hplaced
  exact ⟨hbooks, hplaced⟩

theorem Accounted.runBlockedTest (h : s.Accounted)
    (hpoint : s.point = .blocked r newPlayers false) :
    (s.runBlockedTest r newPlayers).Accounted := by
  obtain ⟨hbooks, hstreaming, hr, hnew⟩ := h.blocked hpoint
  rw [StreamThread.runBlockedTest]
  split
  · exact accounted_sendCommand hbooks hstreaming hr
  · exact accounted_blocked hbooks hstreaming hr hnew true

theorem Accounted.runBlockedWait (h : s.Accounted) (hpoint : s.point = .blocked r newPlayers true)
    (hs : s.runBlockedWait r newPlayers = some s') : s'.Accounted := by
  obtain ⟨hbooks, hstreaming, hr, hnew⟩ := h.blocked hpoint
  rw [StreamThread.runBlockedWait] at hs
  split at hs
  · next ps _ =>
      split at hs
      · cases hs
        exact accounted_finish (by simpa using hbooks.answer) hstreaming rfl (by simp)
      · next hps =>
          cases hs
          apply accounted_blocked
          · simpa using hbooks
          · exact hstreaming
          · exact hr
          · simpa using hps
  · next a rest _ hch =>
      cases hs
      -- the acquire comes into the hand before the command leaves it
      have hboth : (s.desk.takeAcquire a rest).Books [r, a] := by
        have htaken := hbooks.takeAcquire hch
        exact { htaken with balanced := htaken.balanced.perm (List.Perm.swap _ _ _) }
      have hcarried : ((s.takeAcquire a rest).reply r (.success none)).desk.Books
          (carried (.acquire a)) := by
        rw [desk_reply, desk_takeAcquire]
        exact hboth.answer
      refine accounted_finishCommand hcarried hstreaming nofun ?_ ?_
      · simpa [carried] using hbooks.acquires a (by simp [desk, hch])
      · intro ps hps hempty
        rw [hnew ps hps] at hempty
        cases hempty
  · split at hs
    · cases hs
      apply accounted_blocked
      · exact hbooks
      · exact hstreaming
      · exact hr
      · exact hnew
    · cases hs

theorem accounted_of_rebuffering {listening : Bool} (hbooks : s.desk.Books [])
    (hplayers : s.players.isEmpty = false) (hpoint : s.point = .rebuffering listening) :
    s.Accounted := by
  refine accounted_of_inHand ?_ (by simpa [Placed, hpoint] using hplayers)
  simpa [StreamThread.inHand, hpoint] using hbooks

/-- A command that comes during a rebuffer is answered or goes back. -/
theorem Accounted.runRebuffering {listening : Bool} (h : s.Accounted)
    (hpoint : s.point = .rebuffering listening) (hs : s.runRebuffering listening = some s') :
    s'.Accounted := by
  have hbooks : s.desk.Books [] :=
    h.books_nil (by simp [hpoint]) (by simp [StreamThread.inHand, hpoint])
  have hplayers : s.players.isEmpty = false := by simpa [Placed, hpoint] using h.placed
  rw [StreamThread.runRebuffering] at hs
  split at hs
  · cases hs
    have hstreaming : s.finishRebuffer.crew.Streaming := by
      refine ⟨?_, nofun⟩
      simp only [finishRebuffer]
      split <;> exact hplayers
    refine accounted_of_inHand ?_ hstreaming
    simp only [finishRebuffer]
    split <;> exact hbooks
  · split at hs
    · exact h.takeDebug hs
    · next r rest hheard =>
        have hch : s.streamCommandCh = r :: rest := by
          split at hheard
          · exact hheard
          · cases hheard
        have htaken := hbooks.takeCommand hch
        split at hs
        · cases hs
          refine accounted_of_rebuffering ?_ hplayers hpoint
          rw [desk_reply, desk_takeCommand]
          exact htaken.answer
        · cases hs
          exact accounted_of_inHand htaken.putBack hplayers

theorem Accounted.run (h : s.Accounted) {token : ℤ} (hs : s.run token = some s') :
    s'.Accounted := by
  rw [StreamThread.run] at hs
  split at hs
  · next hpoint =>
      cases hs
      exact h.runTop hpoint
  · next hpoint => exact h.runWaitAcquire hpoint hs
  · next hpoint =>
      cases hs
      exact h.runCheck hpoint
  · next hpoint =>
      cases hs
      exact h.finishAcquire hpoint token
  · cases hs
  · next hpoint => exact h.runTrackLoop hpoint hs
  · next r newPlayers hpoint =>
      cases hs
      exact h.runBlockedTest hpoint
  · next r newPlayers hpoint => exact h.runBlockedWait hpoint hs
  · next listening hpoint => exact h.runRebuffering hpoint hs
  · cases hs

/-- What is in hand and what holds at the program point depend on the thread's
own part of the state only. -/
theorem Accounted.environment (h : s.Accounted) {input : StreamInput τ}
    (hs : s.environment input = some s') : s'.Accounted := by
  cases input with
  | run token => cases hs
  | stopResult p ok =>
    simp only [StreamThread.environment] at hs
    split at hs
    · next pending hpoint =>
        split at hs
        · cases hs
          exact h.stopResult hpoint p ok
        · cases hs
    · cases hs
  | acquire app =>
    cases hs
    obtain ⟨l, hbooks, hl⟩ := h.books
    refine ⟨⟨l, hbooks.issue rfl rfl rfl ?_ ?_, hl⟩, h.placed⟩
    · intro q hq
      rcases mem_append.mp hq with hq | hq
      · exact .inl hq
      · obtain rfl := mem_singleton.mp hq
        exact .inr ⟨rfl, rfl⟩
    · simp only [desk, map_append, map_cons, map_nil, append_assoc]
      rw [← append_assoc, ← append_assoc (l.map Request.req)]
      exact perm_middle
  | command token method =>
    simp only [StreamThread.environment] at hs
    split at hs
    · cases hs
    · cases hs
      obtain ⟨l, hbooks, hl⟩ := h.books
      refine ⟨⟨l, hbooks.issue rfl rfl rfl (fun q hq => .inl hq) ?_, hl⟩, h.placed⟩
      simp only [desk, map_append, map_cons, map_nil, ← append_assoc]
      exact perm_append_singleton _ _
  | players | playerStates | rebufferDone | debug | report =>
    cases hs
    exact { h with }

theorem accounted_init : (init : StreamThread τ).Accounted := by
  refine accounted_of_inHand ⟨Balanced.init, ?_, ?_⟩ ?_
  · exact nofun
  · exact nofun
  · exact nofun

/-- `run` or, while the thread waits, what the others do. -/
theorem step_cases {input : StreamInput τ} (hs : s.step input = some s') :
    (∃ token, input = .run token ∧ s.run token = some s') ∨
      s.point.yields = true ∧ s.environment input = some s' := by
  unfold step at hs
  split at hs
  · exact .inl ⟨_, rfl, hs⟩
  · split at hs
    · next hyields => exact .inr ⟨hyields, hs⟩
    · cases hs

theorem accounted_of_reachable (h : (streamThread τ).Reachable s) : s.Accounted := by
  refine h.invariant accounted_init ?_
  intro s input s' hI hs
  rcases step_cases hs with ⟨token, -, hrun⟩ | ⟨-, henv⟩
  · exact hI.run hrun
  · exact hI.environment henv

end Run

end StreamThread

open StreamThread

/-- Whenever control reaches the check at the top of the stream loop there are
players and `stream_command` is an acquire without an answer, so the check does
not exit. -/
theorem check_reached_with_acquire {τ : Type} (s : StreamThread τ)
    (h : (streamThread τ).Reachable s) (hpoint : s.point = .check) :
    s.players.isEmpty = false ∧
      (∃ r, s.streamCommand = some r ∧ r.isAcquire = true ∧ r.req ∉ s.replies.map Prod.fst) ∧
      ∀ input s', s.step input = some s' → s'.point ≠ .exited := by
  obtain ⟨hplayers, ⟨r, hcommand, hacquire⟩, hbooks⟩ :=
    (accounted_of_reachable h).acquiring (.inl hpoint)
  rw [hcommand] at hbooks
  refine ⟨hplayers, ⟨r, hcommand, hacquire, ?_⟩, ?_⟩
  · exact hbooks.balanced.not_mem_answered (by simp)
  · intro input s' hs
    obtain ⟨token, -, hrun⟩ | ⟨hyields, -⟩ := step_cases hs
    · obtain ⟨app, hmethod⟩ := r.method_of_isAcquire hacquire
      simp only [run, hpoint, Option.some.injEq] at hrun
      subst hrun
      simp [runCheck, hcommand, hmethod, startAcquire, goTo]
    · simp [hpoint, Point.yields] at hyields

theorem check_reached_with_acquire_first :
    ∃ s, (streamThread Unit).runFrom .init acquireInputs = some s ∧ s.point = .check ∧
      s.players.isEmpty = false ∧
      (∃ r, s.streamCommand = some r ∧ r.isAcquire = true ∧ r.req ∉ s.replies.map Prod.fst) ∧
      ∀ input s', s.step input = some s' → s'.point ≠ .exited :=
  ⟨_, rfl, rfl, check_reached_with_acquire _
    (System.Reachable.runFrom acquireInputs .init rfl) rfl⟩

/-- No request is answered twice, and at its two outer waits the thread has
answered every request it has taken, or has put it back. -/
theorem requests_answered_once {τ : Type} (s : StreamThread τ)
    (h : (streamThread τ).Reachable s) :
    (s.replies.map Prod.fst).Nodup ∧
      (s.point = .waitAcquire ∨ s.point = .trackLoop →
        ∀ r ∈ s.taken, r ∈ s.replies.map Prod.fst ∨ r ∈ s.streamCommandCh.map Request.req) := by
  have haccounted := accounted_of_reachable h
  obtain ⟨l, hbooks, hl⟩ := haccounted.books
  refine ⟨hbooks.balanced.nodup_answered, ?_⟩
  intro hpoint r hr
  obtain rfl : l = [] := by
    rcases hpoint with hpoint | hpoint
    all_goals simpa [inHand, hpoint] using hl
  obtain ⟨hlt, hnot⟩ := hbooks.taken r hr
  rcases hbooks.balanced.mem_of_lt hlt with hanswered | hwaiting
  · exact .inl hanswered
  · rw [nil_append, map_append, mem_append] at hwaiting
    rcases hwaiting with hacquire | hcommand
    · exact absurd hacquire hnot
    · exact .inr hcommand

/-- A `flush` is taken and answered in a session. -/
theorem requests_answered_once_flush :
    ∃ s, (streamThread Unit).runFrom .init
        (sessionInputs ++ [.command (some 7) .flush, .run 0]) = some s ∧
      s.point = .trackLoop ∧ s.taken = [0, 1] ∧ (s.replies.map Prod.fst).Nodup ∧
      (s.point = .waitAcquire ∨ s.point = .trackLoop →
        ∀ r ∈ s.taken, r ∈ s.replies.map Prod.fst ∨ r ∈ s.streamCommandCh.map Request.req) :=
  ⟨_, rfl, rfl, rfl, requests_answered_once _ (System.Reachable.runFrom
    (sessionInputs ++ [.command (some 7) .flush, .run 0]) .init rfl)⟩

end BeepMusic.Distributor
