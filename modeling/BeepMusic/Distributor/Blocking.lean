import BeepMusic.Distributor.Replies

/-!
Commands that wait for room. The loops of `track_begin` and `buffer` test the
player set they were entered with, also after they have received a newer one, so
a player that is gone can hold up the stream to those that are there.
-/

namespace BeepMusic.Distributor

open Lib

namespace StreamThread

variable {τ : Type}

/-- What `track_begin` and `buffer` send to each player. -/
def payload (r : Request τ) : Option Send :=
  match r.method with
  | .trackBegin _ _ audioType => some (.trackBegin audioType)
  | .buffer data => some (.buffer data)
  | _ => none

/-- Every player of the most recently received non-empty set has room. -/
def LatestFit (s : StreamThread τ) (r : Request τ) : Prop :=
  ∀ p ∈ s.latestPlayers.players, s.fits r p = true
deriving Decidable

/-- All of them have room, but a player without room that is not among them is
still waited for. -/
def HeldUpByDropped (s : StreamThread τ) (r : Request τ) : Prop :=
  s.LatestFit r ∧ ∃ p ∈ s.players.players, p ∉ s.latestPlayers ∧ s.fits r p = false
deriving Decidable

/-- The next iteration of the loop leaves it and sends the command to every
player the loop was entered with; an invalid audio type ends the process. -/
def NextIterationSends (s : StreamThread τ) (r : Request τ) : Prop :=
  ∀ token, ∃ s', s.run token = some s' ∧
    (∀ newPlayers waiting, s'.point ≠ .blocked r newPlayers waiting) ∧
    (s'.point ≠ .exited → ∃ x, payload r = some x ∧
      s'.sends = s.sends ++ s.players.players.map fun p => (p, x))

section

variable {s : StreamThread τ} {r : Request τ} {newPlayers : Option PlayerSet}

theorem sends_handleResult {result : ThreadResult τ} (hresult : result ≠ .flush) :
    (s.handleResult result).sends = s.sends := by
  cases result with
  | flush => exact absurd rfl hresult
  | trackEnd =>
    simp only [handleResult]
    split <;> rfl
  | ok | acquire | trackBegin | rebufferOk => rfl

theorem sends_finishCommand {result : ThreadResult τ} (hresult : result ≠ .flush) :
    (s.finishCommand newPlayers result).sends = s.sends := by
  cases newPlayers with
  | none => exact sends_handleResult hresult
  | some ps =>
    simp only [finishCommand]
    split
    · rfl
    · rw [sends_handleResult hresult, adoptPlayers]
      split <;> rfl

theorem sends_sendCommand (hr : r.canBlock = true)
    (hexit : (s.sendCommand r newPlayers).point ≠ .exited) :
    ∃ x, payload r = some x ∧
      (s.sendCommand r newPlayers).sends = s.sends ++ s.players.players.map fun p => (p, x) := by
  obtain ⟨_, _, audioType, hmethod⟩ | ⟨data, hmethod⟩ := r.method_of_canBlock hr
  · refine ⟨.trackBegin audioType, by simp [payload, hmethod], ?_⟩
    simp only [sendCommand, hmethod] at hexit ⊢
    split at hexit
    · exact absurd rfl hexit
    · next hlength =>
        rw [if_neg hlength, sends_finishCommand (by simp)]
        rfl
  · refine ⟨.buffer data, by simp [payload, hmethod], ?_⟩
    simp only [sendCommand, hmethod]
    rw [sends_finishCommand (by simp)]
    rfl

/-- Nothing after the loop waits in it again. -/
theorem point_sendCommand (hr : r.canBlock = true) (ps : Option PlayerSet) (waiting : Bool) :
    (s.sendCommand r newPlayers).point ≠ .blocked r ps waiting := by
  obtain ⟨_, _, _, hmethod⟩ | ⟨_, hmethod⟩ := r.method_of_canBlock hr
  · simp only [sendCommand, hmethod]
    split
    · simp [goTo]
    · exact point_finishCommand r ps waiting
  · simp only [sendCommand, hmethod]
    exact point_finishCommand r ps waiting

/-- The loop is left exactly when the set it was entered with has room. -/
theorem nextIterationSends_iff (hpoint : s.point = .blocked r newPlayers false)
    (hr : r.canBlock = true) :
    s.NextIterationSends r ↔ ∀ p ∈ s.players.players, s.fits r p = true := by
  have hrun : ∀ token, s.run token = some (s.runBlockedTest r newPlayers) := by
    simp [run, hpoint]
  have hfits : s.players.allVals (s.fits r) = true ↔
      ∀ p ∈ s.players.players, s.fits r p = true := by
    simp [PlayerSet.allVals]
  rw [← hfits]
  constructor
  · intro h
    obtain ⟨s', hs', hleft, -⟩ := h 0
    by_contra hfull
    rw [hrun, runBlockedTest, if_neg hfull, Option.some.injEq] at hs'
    subst hs'
    exact hleft newPlayers true rfl
  · intro hroom token
    refine ⟨s.sendCommand r newPlayers, ?_, point_sendCommand hr, sends_sendCommand hr⟩
    rw [hrun, runBlockedTest, if_pos hroom]

end

end StreamThread

open StreamThread

/-- A command whose loop is at its test is sent as soon as the most recent
players have room, exactly when it is not held up by a player that was dropped. -/
theorem blocked_sends_iff {τ : Type} (s : StreamThread τ) (r : Request τ)
    (newPlayers : Option PlayerSet) (h : (streamThread τ).Reachable s)
    (hpoint : s.point = .blocked r newPlayers false) :
    (s.LatestFit r → s.NextIterationSends r) ↔ ¬s.HeldUpByDropped r := by
  have hr := ((accounted_of_reachable h).blocked hpoint).2.2.1
  rw [nextIterationSends_iff hpoint hr]
  constructor
  · rintro hsends ⟨hlatest, p, hp, -, hfull⟩
    rw [hsends hlatest p hp] at hfull
    cases hfull
  · intro hnot hlatest p hp
    by_contra hfull
    have hfull : s.fits r p = false := by simpa using hfull
    apply hnot
    refine ⟨hlatest, p, hp, ?_, hfull⟩
    intro hmem
    rw [hlatest p hmem] at hfull
    cases hfull

/-- A session with two players, `reports` of their room, and a `buffer`, up to
the test of its loop. -/
def bufferInputs (reports : List (StreamInput Unit)) : List (StreamInput Unit) :=
  [.run 0, .players twoPlayers, .run 0, .acquire "app", .run 0, .run 0,
    .stopResult ⟨"p", 0⟩ true, .stopResult ⟨"q", 1⟩ true, .run 7] ++ reports ++
    [.command (some 7) (.buffer [1]), .run 0]

theorem blocked_sends_with_room :
    ∃ s r, (streamThread Unit).runFrom .init
        (bufferInputs [.report ⟨"p", 0⟩ { streambufFree := 100000 },
          .report ⟨"q", 1⟩ { streambufFree := 100000 }]) = some s ∧
      s.point = .blocked r none false ∧ s.NextIterationSends r := by
  refine ⟨_, _, rfl, rfl, (blocked_sends_iff _ _ none ?_ rfl).mpr (by decide) (by decide)⟩
  exact System.Reachable.runFrom (bufferInputs [.report ⟨"p", 0⟩ { streambufFree := 100000 },
    .report ⟨"q", 1⟩ { streambufFree := 100000 }]) .init rfl

/-- `q` is full and has left the set, and `p` has room: the `buffer` still
waits for `q`. -/
theorem dropped_player_holds_up :
    ∃ s r newPlayers, (streamThread Unit).Reachable s ∧ s.point = .blocked r newPlayers false ∧
      s.LatestFit r ∧ ¬s.NextIterationSends r := by
  refine ⟨_, _, _, System.Reachable.runFrom (bufferInputs
    [.report ⟨"p", 0⟩ { streambufFree := 100000 }] ++ [.run 0, .players onePlayer, .run 0]) .init
    rfl, rfl, by decide, ?_⟩
  rw [nextIterationSends_iff rfl rfl]
  decide

end BeepMusic.Distributor
