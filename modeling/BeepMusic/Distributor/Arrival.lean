import BeepMusic.Distributor.Replies

/-!
The order of stream commands. Within the session of one acquire the commands
that were carried out, the one in hand and the ones still queued are, in this
order, the commands that have arrived. Putting a command back at the end of the
channel during a rebuffer breaks this unless it was the last of them.
-/

namespace BeepMusic.Distributor

open Lib List

/-- A command that changes what the players get. -/
def Request.isEffect {τ : Type} (r : Request τ) : Bool :=
  match r.method with
  | .trackBegin _ _ _ | .buffer _ | .flush | .trackEnd => true
  | _ => false

/-- The part of the thread that the order of commands is about. -/
structure Session (τ : Type) where
  token : Option ℤ
  arrivals : List (Request τ)
  effects : List (Request τ)
  commands : List (Request τ)

namespace Session

variable {τ : Type}

/-- An effect with a valid token. -/
def counts (q : Session τ) (r : Request τ) : Bool :=
  r.isEffect && decide (r.token = some 1234567 ∨ r.token = q.token)

/-- The effects are the first commands that have arrived. -/
def InOrder (q : Session τ) : Prop := q.effects <+: q.arrivals.filter q.counts

instance (q : Session τ) [DecidableEq τ] : Decidable q.InOrder :=
  inferInstanceAs (Decidable (_ <+: _))

/-- With the commands `l` in hand, nothing is missing or out of order. -/
def Continues (q : Session τ) (l : List (Request τ)) : Prop :=
  q.effects ++ l ++ q.commands.filter q.counts = q.arrivals.filter q.counts

variable {q : Session τ} {l : List (Request τ)} {r : Request τ}

/-- Neither an acquire nor a question is an effect. -/
theorem counts_of_isAcquire (h : r.isAcquire = true) : q.counts r = false := by
  obtain ⟨app, hmethod⟩ := r.method_of_isAcquire h
  simp [counts, Request.isEffect, hmethod]

theorem counts_of_isQuestion (h : r.isQuestion = true) : q.counts r = false := by
  rw [Request.isQuestion] at h
  split at h
  · next hmethod => simp [counts, Request.isEffect, hmethod]
  · next hmethod => simp [counts, Request.isEffect, hmethod]
  · cases h

theorem Continues.inOrder (h : q.Continues l) : q.InOrder :=
  ⟨l ++ q.commands.filter q.counts, by rw [← append_assoc]; exact h⟩

theorem InOrder.arrive (h : q.InOrder) :
    { q with arrivals := q.arrivals ++ [r], commands := q.commands ++ [r] }.InOrder := by
  obtain ⟨rest, hrest⟩ := h
  change q.effects <+: (q.arrivals ++ [r]).filter q.counts
  rw [filter_append, ← hrest, append_assoc]
  exact prefix_append _ _

theorem Continues.arrive (h : q.Continues l) :
    { q with arrivals := q.arrivals ++ [r], commands := q.commands ++ [r] }.Continues l := by
  change q.effects ++ l ++ (q.commands ++ [r]).filter q.counts =
    (q.arrivals ++ [r]).filter q.counts
  rw [filter_append, filter_append, ← h, ← append_assoc]

theorem Continues.take (h : q.Continues []) {rest : List (Request τ)}
    (hcommands : q.commands = r :: rest) :
    { q with commands := rest }.Continues ([r].filter q.counts) := by
  change q.effects ++ [r].filter q.counts ++ rest.filter q.counts = q.arrivals.filter q.counts
  rw [← h, hcommands, append_nil, append_assoc, ← filter_append]
  rfl

theorem Continues.effect (h : q.Continues [r]) :
    { q with effects := q.effects ++ [r] }.Continues [] := by
  change q.effects ++ [r] ++ [] ++ q.commands.filter q.counts = q.arrivals.filter q.counts
  rw [append_nil]
  exact h

/-- The first command goes to the end: all is well if nothing behind it counts,
or if it does not count itself. -/
theorem Continues.rotate (h : q.Continues []) {rest : List (Request τ)}
    (hcommands : q.commands = r :: rest)
    (hlast : q.counts r = true → ∀ r' ∈ rest, q.counts r' = false) :
    { q with commands := rest ++ [r] }.Continues [] := by
  change q.effects ++ [] ++ (rest ++ [r]).filter q.counts = q.arrivals.filter q.counts
  have hfilter : (rest ++ [r]).filter q.counts = (r :: rest).filter q.counts := by
    rw [filter_append, filter_cons, filter_cons]
    cases hr : q.counts r with
    | false => simp
    | true =>
      have hnone : rest.filter q.counts = [] := by
        rw [filter_eq_nil_iff]
        intro r' hr'
        simp [hlast hr r' hr']
      simp [hnone]
  rw [hfilter, ← hcommands]
  exact h

end Session

/-- The program points of the track buffering loop. -/
def Point.inSession {τ : Type} : Point τ → Bool
  | .trackLoop | .rebuffering _ | .blocked _ _ _ => true
  | .top | .waitAcquire | .check | .stopping _ | .exited => false

namespace StreamThread

variable {τ : Type} (s : StreamThread τ)

def session : Session τ where
  token := s.ownerToken
  arrivals := s.arrivals
  effects := s.effects
  commands := s.streamCommandCh

theorem counts_session (r : Request τ) : s.session.counts r = (r.isEffect && s.tokenValid r) := rfl

/-- No command that counts is put back during a rebuffer while another one that
counts is queued behind it. -/
def NotOvertaken : StreamInput τ → Prop
  | .run _ => s.point = .rebuffering true → s.rebufferDoneCh = false →
      ∀ r ∈ s.streamCommandCh.head?, s.session.counts r = true →
        ∀ r' ∈ s.streamCommandCh.tail, s.session.counts r' = false
  | _ => True

instance [DecidableEq τ] (s : StreamThread τ) (input : StreamInput τ) :
    Decidable (s.NotOvertaken input) :=
  match input with
  | .run _ => inferInstanceAs (Decidable (_ → _))
  | .stopResult _ _ | .players _ | .acquire _ | .command _ _ | .playerStates | .rebufferDone
  | .debug | .report _ _ => isTrue trivial

/-- The commands of a session continue one another while it lasts. -/
def Sequential : Prop :=
  match s.point with
  | .trackLoop | .rebuffering _ => s.session.Continues []
  | .blocked r _ _ => s.session.Continues [r]
  | .top | .waitAcquire | .check | .stopping _ | .exited => s.session.InOrder

section Frame

variable (s : StreamThread τ) (r : Request τ) (rest : List (Request τ))

@[simp] theorem session_reply (answer : Reply) : (s.reply r answer).session = s.session := rfl
@[simp] theorem session_putStreamEvent (e : StreamEvent τ) :
    (s.putStreamEvent e).session = s.session := rfl
@[simp] theorem session_sendAll (x : Send) : (s.sendAll x).session = s.session := rfl
@[simp] theorem session_logEffect : (s.logEffect r).session =
    { s.session with effects := s.session.effects ++ [r] } := rfl
@[simp] theorem session_takePlayers (ps : PlayerSet) :
    (s.takePlayers ps).session = s.session := rfl
@[simp] theorem session_takeAcquire : (s.takeAcquire r rest).session = s.session := rfl
@[simp] theorem session_adoptPlayers (ps : PlayerSet) :
    (s.adoptPlayers ps).session = s.session := by
  rw [adoptPlayers]
  split <;> rfl

end Frame

section Control

variable {s : StreamThread τ} {r : Request τ} {result : ThreadResult τ}
  {newPlayers : Option PlayerSet}

theorem session_handleResult : (s.handleResult result).session = s.session := by
  cases result with
  | trackEnd =>
    simp only [handleResult]
    split <;> rfl
  | ok | acquire | flush | trackBegin | rebufferOk => rfl

theorem session_finishCommand : (s.finishCommand newPlayers result).session = s.session := by
  cases newPlayers with
  | none => exact session_handleResult
  | some ps =>
    simp only [finishCommand]
    split
    · rfl
    · rw [session_handleResult, session_adoptPlayers]

theorem sequential_of_continues (h : s.session.Continues [])
    (hpoint : ∀ r newPlayers waiting, s.point ≠ .blocked r newPlayers waiting) :
    s.Sequential := by
  rw [Sequential]
  split
  · exact h
  · exact h
  · next hblocked => exact absurd hblocked (hpoint _ _ _)
  all_goals exact h.inOrder

/-- Back in the loop, or out of it, with nothing in hand. -/
theorem sequential_finishCommand (h : s.session.Continues []) :
    (s.finishCommand newPlayers result).Sequential := by
  apply sequential_of_continues
  · rwa [session_finishCommand]
  · exact point_finishCommand

theorem point_finishCommand_acquire {a : Request τ} :
    (s.finishCommand newPlayers (.acquire a)).point = .top := by
  cases newPlayers with
  | none => rfl
  | some ps =>
    simp only [finishCommand]
    split <;> rfl

theorem sequential_answerCan (h : s.session.Continues []) (what : String)
    (immediately : Bool) (test : PlayerState → Bool) :
    (s.answerCan r what immediately test).Sequential := by
  rw [answerCan]
  split
  · exact sequential_finishCommand h
  · split <;> exact sequential_finishCommand h

theorem sequential_sendCommand (h : s.session.Continues [r]) (hr : r.canBlock = true) :
    (s.sendCommand r newPlayers).Sequential := by
  obtain ⟨_, _, _, hmethod⟩ | ⟨_, hmethod⟩ := r.method_of_canBlock hr
  · simp only [sendCommand, hmethod]
    split
    · exact h.inOrder
    · exact sequential_finishCommand (by simpa using h.effect)
  · simp only [sendCommand, hmethod]
    exact sequential_finishCommand (by simpa using h.effect)

/-- A command that is not an effect, or has no valid token, is not missed; an
effect with a valid token is in hand until it is carried out. -/
theorem sequential_handleStreamCommand (h : s.session.Continues ([r].filter s.session.counts)) :
    (s.handleStreamCommand r).Sequential := by
  have hskip : s.session.counts r = false → s.session.Continues [] := by
    intro hcounts
    simpa [hcounts] using h
  rw [handleStreamCommand]
  split
  · next hacquire =>
      exact sequential_finishCommand (hskip (Session.counts_of_isAcquire hacquire))
  split
  · next htoken =>
      refine sequential_finishCommand (hskip ?_)
      rw [counts_session, htoken, Bool.and_false]
  next htoken =>
  have htoken : s.tokenValid r = true := by simpa using htoken
  have hhand : r.isEffect = true → s.session.Continues [r] := by
    intro heffect
    have hcounts : s.session.counts r = true := by rw [counts_session, heffect, htoken]; rfl
    simpa [hcounts] using h
  split
  · next hmethod =>
      exact sequential_answerCan (hskip (by simp [Session.counts, Request.isEffect, hmethod])) _ _ _
  · next hmethod =>
      have hr := hhand (by simp [Request.isEffect, hmethod])
      dsimp only
      split
      · exact sequential_sendCommand (by simpa using hr) (by simp [Request.canBlock, hmethod])
      · exact hr
  · next hmethod =>
      exact sequential_answerCan (hskip (by simp [Session.counts, Request.isEffect, hmethod])) _ _ _
  · next hmethod => exact hhand (by simp [Request.isEffect, hmethod])
  · next hmethod =>
      have hr := hhand (by simp [Request.isEffect, hmethod])
      exact sequential_finishCommand (by simpa using hr.effect)
  · next hmethod =>
      have hr := hhand (by simp [Request.isEffect, hmethod])
      exact sequential_finishCommand (by simpa using hr.effect)
  all_goals
    next hmethod =>
      exact sequential_finishCommand
        (hskip (by simp [Session.counts, Request.isEffect, hmethod]))

end Control

section Run

variable {s s' : StreamThread τ}

theorem Sequential.inOrder (h : s.Sequential) : s.session.InOrder := by
  rw [Sequential] at h
  split at h
  · exact h.inOrder
  · exact h.inOrder
  · exact h.inOrder
  all_goals exact h

/-- Outside a session the order is safe from anything that leaves the effects
and the arrivals alone. -/
theorem sequential_of_inOrder (h : s.session.InOrder) (hout : s.point.inSession = false) :
    s.Sequential := by
  rw [Sequential]
  split
  · next hpoint => simp [hpoint, Point.inSession] at hout
  · next hpoint => simp [hpoint, Point.inSession] at hout
  · next hpoint => simp [hpoint, Point.inSession] at hout
  all_goals exact h

theorem Sequential.takeDebug (h : s.Sequential) (hs : s.takeDebug = some s') : s'.Sequential := by
  rw [StreamThread.takeDebug] at hs
  split at hs
  · cases hs
    exact h
  · cases hs

theorem Sequential.runWaitAcquire (h : s.Sequential) (hpoint : s.point = .waitAcquire)
    (hs : s.runWaitAcquire = some s') : s'.Sequential := by
  have horder := h.inOrder
  have hout : s.point.inSession = false := by simp [hpoint, Point.inSession]
  rw [StreamThread.runWaitAcquire] at hs
  split at hs
  · cases hs
    exact sequential_of_inOrder horder hout
  · dsimp only at hs
    split at hs
    · cases hs
      exact sequential_of_inOrder horder hout
    · cases hs
      exact horder
  · cases hs
    exact sequential_of_inOrder horder hout
  · exact h.takeDebug hs

theorem Sequential.runTrackLoop (h : s.Sequential) (hpoint : s.point = .trackLoop)
    (hacquires : ∀ r ∈ s.acquireCh, r.isAcquire = true) (hs : s.runTrackLoop = some s') :
    s'.Sequential := by
  have hcontinues : s.session.Continues [] := by simpa [Sequential, hpoint] using h
  rw [StreamThread.runTrackLoop] at hs
  split at hs
  · next ps _ =>
      dsimp only at hs
      split at hs
      · cases hs
        exact hcontinues.inOrder
      · have hadopted : ((s.takePlayers ps).adoptPlayers ps).session.Continues [] := by
          simpa using hcontinues
        split at hs
        · cases hs
          exact hadopted
        · cases hs
          apply sequential_of_continues hadopted
          rw [adoptPlayers]
          split <;> simp [takePlayers, hpoint]
  · next r rest _ hch =>
      cases hs
      apply sequential_handleStreamCommand
      have hcounts : s.session.counts r = false :=
        Session.counts_of_isAcquire (hacquires r (hch ▸ mem_cons_self))
      simpa [hcounts] using hcontinues
  · next r rest _ _ hch =>
      cases hs
      exact sequential_handleStreamCommand (hcontinues.take hch)
  · exact h.takeDebug hs

theorem Sequential.runBlockedWait {r : Request τ} {newPlayers : Option PlayerSet}
    (h : s.Sequential) (hpoint : s.point = .blocked r newPlayers true)
    (hs : s.runBlockedWait r newPlayers = some s') : s'.Sequential := by
  have hcontinues : s.session.Continues [r] := by simpa [Sequential, hpoint] using h
  rw [StreamThread.runBlockedWait] at hs
  split at hs
  · next ps _ =>
      split at hs
      · next hps =>
          cases hs
          simp only [finishCommand, hps, if_true]
          exact hcontinues.inOrder
      · cases hs
        exact hcontinues
  · next a rest _ _ =>
      cases hs
      -- the session ends, and the command in hand is given up with it
      apply sequential_of_inOrder
      · rw [session_finishCommand]
        exact hcontinues.inOrder
      · rw [point_finishCommand_acquire]
        rfl
  · split at hs
    · cases hs
      exact hcontinues
    · cases hs

theorem Sequential.runRebuffering {listening : Bool} (h : s.Sequential)
    (hpoint : s.point = .rebuffering listening)
    (hok : s.point = .rebuffering true → s.rebufferDoneCh = false →
      ∀ r ∈ s.streamCommandCh.head?, s.session.counts r = true →
        ∀ r' ∈ s.streamCommandCh.tail, s.session.counts r' = false)
    (hs : s.runRebuffering listening = some s') : s'.Sequential := by
  have hcontinues : s.session.Continues [] := by simpa [Sequential, hpoint] using h
  rw [StreamThread.runRebuffering] at hs
  split at hs
  · cases hs
    simp only [finishRebuffer]
    split <;> exact hcontinues
  · next hdone =>
      split at hs
      · exact h.takeDebug hs
      · next r rest hheard =>
          obtain ⟨rfl, hch⟩ : listening = true ∧ s.streamCommandCh = r :: rest := by
            split at hheard
            · next hlistening => exact ⟨hlistening, hheard⟩
            · cases hheard
          have hlast := hok hpoint (by simpa using hdone) r (by simp [hch])
          rw [hch, tail_cons] at hlast
          split at hs
          · next hquestion =>
              cases hs
              have htaken := hcontinues.take hch
              simp only [filter_cons, Session.counts_of_isQuestion hquestion,
                filter_nil] at htaken
              apply sequential_of_continues
              · exact htaken
              · simp [reply, takeCommand, hpoint]
          · cases hs
            exact hcontinues.rotate hch hlast

/-- A session begins with the commands that are queued. -/
theorem sequential_finishAcquire (token : ℤ) : (s.finishAcquire token).Sequential := by
  apply sequential_of_continues
  · rfl
  · simp [finishAcquire]

theorem Sequential.run (h : s.Sequential) (haccounted : s.Accounted) {token : ℤ}
    (hok : s.NotOvertaken (.run token)) (hs : s.run token = some s') : s'.Sequential := by
  rw [StreamThread.run] at hs
  split at hs
  · cases hs
    rw [runTop]
    split <;> exact h.inOrder
  · next hpoint => exact h.runWaitAcquire hpoint hs
  · cases hs
    rw [runCheck]
    split <;> exact h.inOrder
  · cases hs
    exact sequential_finishAcquire token
  · cases hs
  · next hpoint =>
      obtain ⟨l, hbooks, -⟩ := haccounted.books
      exact h.runTrackLoop hpoint hbooks.acquires hs
  · next r newPlayers hpoint =>
      cases hs
      have hcontinues : s.session.Continues [r] := by simpa [Sequential, hpoint] using h
      rw [runBlockedTest]
      split
      · exact sequential_sendCommand hcontinues (haccounted.blocked hpoint).2.2.1
      · exact hcontinues
  · next r newPlayers hpoint => exact h.runBlockedWait hpoint hs
  · next listening hpoint => exact h.runRebuffering hpoint hok hs
  · cases hs

theorem Sequential.arrive (h : s.Sequential) (r : Request τ) (issued : ℕ) :
    { s with
      streamCommandCh := s.streamCommandCh ++ [r]
      arrivals := s.arrivals ++ [r]
      issued := issued }.Sequential := by
  rw [Sequential] at h ⊢
  split at h
  all_goals
    next hpoint =>
      simp only [hpoint]
      exact h.arrive

theorem Sequential.environment (h : s.Sequential) {input : StreamInput τ}
    (hs : s.environment input = some s') : s'.Sequential := by
  cases input with
  | run token => cases hs
  | stopResult p ok =>
    simp only [StreamThread.environment] at hs
    split at hs
    · split at hs
      · cases hs
        rw [stopResult]
        split <;> exact h.inOrder
      · cases hs
    · cases hs
  | command token method =>
    simp only [StreamThread.environment] at hs
    split at hs
    · cases hs
    · cases hs
      exact h.arrive _ _
  | players | acquire | playerStates | rebufferDone | debug | report =>
    cases hs
    exact h

end Run

end StreamThread

open StreamThread

/-- In a run without overtaking, the commands carried out in a session are the
first ones of those that arrived for it. -/
theorem effects_inOrder_of_notOvertaken {τ : Type} (s : StreamThread τ)
    (h : (streamThread τ).ReachableUnder NotOvertaken s) : s.session.InOrder := by
  have hinvariant : s.Accounted ∧ s.Sequential := by
    refine h.invariant (I := fun u => u.Accounted ∧ u.Sequential)
      ⟨accounted_init, prefix_rfl⟩ ?_
    rintro s input s' ⟨haccounted, hsequential⟩ hok hs
    obtain ⟨token, rfl, hrun⟩ | ⟨-, henv⟩ := step_cases hs
    · exact ⟨haccounted.run hrun, hsequential.run haccounted hok hrun⟩
    · exact ⟨haccounted.environment henv, hsequential.environment henv⟩
  exact hinvariant.2.inOrder

/-- A second player joins, a question starts the rebuffer for it, and the
commands `methods` arrive before it is done; both players have room. -/
def rebufferInputs (methods : List (Method Unit)) : List (StreamInput Unit) :=
  sessionInputs ++
    [.players twoPlayers, .run 0, .command (some 7) (.canBuffer 1), .run 0] ++
    methods.map (fun method => .command (some 7) method) ++
    [.run 0, .rebufferDone, .run 0, .report ⟨"p", 0⟩ { streambufFree := 100000 },
      .report ⟨"q", 1⟩ { streambufFree := 100000 }, .run 0, .run 0]

/-- A single `buffer` is put back and carried out after the rebuffer. -/
theorem effects_inOrder_one_buffer :
    ∃ s, (streamThread Unit).runFrom .init (rebufferInputs [.buffer [1]]) = some s ∧
      s.effects.map Request.method = [.buffer [1]] ∧ s.session.InOrder := by
  refine ⟨_, rfl, rfl, effects_inOrder_of_notOvertaken _ ?_⟩
  exact System.ReachableUnder.runFrom (rebufferInputs [.buffer [1]]) .init (by decide) rfl

/-- Of two of them, the second is carried out first. -/
theorem second_buffer_overtakes :
    ∃ s, (streamThread Unit).Reachable s ∧ s.effects.map Request.method = [.buffer [2]] ∧
      ¬s.session.InOrder := by
  refine ⟨_, System.Reachable.runFrom (rebufferInputs [.buffer [1], .buffer [2]]) .init rfl, rfl,
    ?_⟩
  decide

end BeepMusic.Distributor
