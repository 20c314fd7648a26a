import BeepMusic.Distributor.Rebuffer

/-!
How much of the stream `buffer_thread` keeps. The amount it counts is the size of
what it keeps, so the loop that evicts buffers ends as soon as the amount the player
still needs is not negative: at the latest when nothing is left to evict.
-/

namespace BeepMusic.Distributor

open List

/-- The size of some buffers. -/
def totalSize (buffers : List Data) : ℕ := (buffers.map List.length).sum

@[simp] theorem totalSize_nil : totalSize [] = 0 := rfl

@[simp] theorem totalSize_cons (data : Data) (buffers : List Data) :
    totalSize (data :: buffers) = data.length + totalSize buffers := by
  simp [totalSize]

@[simp] theorem totalSize_append (buffers buffers' : List Data) :
    totalSize (buffers ++ buffers') = totalSize buffers + totalSize buffers' := by
  simp [totalSize]

/-- The loop ends, has dropped the oldest buffers, and what is left is small enough. -/
theorem evict_totalSize {amount : ℚ} (hamount : 0 ≤ amount) (buffers : List Data) :
    ∃ k, evict amount buffers (totalSize buffers) =
        some (buffers.drop k, (totalSize (buffers.drop k) : ℤ)) ∧
      (totalSize (buffers.drop k) : ℚ) ≤ amount := by
  induction buffers with
  | nil =>
    have hle : ¬amount < ((totalSize [] : ℤ) : ℚ) := by simpa using hamount
    exact ⟨0, by rw [evict, if_neg hle, drop_zero], by simpa using hamount⟩
  | cons data buffers ih =>
    by_cases hlt : amount < ((totalSize (data :: buffers) : ℤ) : ℚ)
    · obtain ⟨k, hk, hle⟩ := ih
      refine ⟨k + 1, ?_, hle⟩
      have hrest : (totalSize (data :: buffers) : ℤ) - data.length = totalSize buffers := by
        rw [totalSize_cons]
        omega
      rw [evict, if_pos hlt, hrest, drop_succ_cons]
      exact hk
    · refine ⟨0, by rw [evict, if_neg hlt, drop_zero], ?_⟩
      exact_mod_cast not_lt.mp hlt

/-- A player reports at most the whole stream buffer as free, and no negative amounts. -/
structure PlayerState.Sane (st : PlayerState) : Prop where
  streambufFree : st.streambufFree ≤ streambufSize
  outputUsed : 0 ≤ st.outputUsed
  bitrate : 0 ≤ st.bitrate

theorem PlayerState.Sane.charge {st : PlayerState} (h : st.Sane) (x : Send) :
    (x.charge st).Sane := by
  have hfree := h.streambufFree
  have hcommand : 0 ≤ streamCommandSize := by decide
  cases x with
  | stop cookie => exact h
  | flush cookie => exact h
  | start | trackBegin audioType | buffer data | trackEnd =>
    exact ⟨by simp only [Send.charge]; omega, h.outputUsed, h.bitrate⟩

/-- What the player needs is not a negative amount. -/
theorem PlayerState.Sane.playerAmount_nonneg {st : PlayerState} (h : st.Sane) {bitrate : ℤ}
    (hbitrate : 0 ≤ bitrate) : 0 ≤ playerAmount st bitrate := by
  have hfree : (0 : ℚ) ≤ streambufSize - st.streambufFree := by
    rw [sub_nonneg]
    exact_mod_cast h.streambufFree
  have hused : (0 : ℚ) ≤ st.outputUsed := by exact_mod_cast h.outputUsed
  have hplayed : (0 : ℚ) ≤ ⌊(st.outputUsed * 1000 : ℚ) / (44100 * 8)⌋ * bitrate * 1024 /
      (1000 * 8) := by
    positivity
  simp only [playerAmount]
  split
  · norm_num [streambufSize, maxExtraBuffer]
  · exact add_nonneg hfree hplayed

variable {τ : Type} {s s' : BufferThread τ} {input : BufferInput τ}

namespace BufferThread

/-- Reports are sane. -/
def SaneReports (_ : BufferThread τ) : BufferInput τ → Prop
  | .report _ state => state.Sane
  | _ => True

/-- The amount is that of the buffers, and the players' states are sane. -/
structure Accounted (s : BufferThread τ) : Prop where
  amount : s.bufferedAmount = totalSize s.buffers
  sane : ∀ p, (s.playerState p).Sane

/-- A rebuffer sends what is kept and leaves it as it is. -/
structure Keeps (s s' : BufferThread τ) : Prop where
  buffers : s'.buffers = s.buffers
  amount : s'.bufferedAmount = s.bufferedAmount
  sane : (∀ p, (s.playerState p).Sane) → ∀ p, (s'.playerState p).Sane

theorem Accounted.keeps (h : s.Accounted) (hk : s.Keeps s') : s'.Accounted where
  amount := by rw [hk.amount, hk.buffers, h.amount]
  sane := hk.sane h.sane

theorem keeps_of_eq (hbuffers : s'.buffers = s.buffers)
    (hamount : s'.bufferedAmount = s.bufferedAmount) (hstates : s'.playerState = s.playerState) :
    s.Keeps s' :=
  ⟨hbuffers, hamount, fun h => hstates ▸ h⟩

theorem keeps_sendPlayers (rb : Rebuffer) (x : Send) (failed : List Player)
    (next : RebufferPoint) : s.Keeps (s.sendPlayers rb x failed next) := by
  refine ⟨rfl, rfl, fun h p => ?_⟩
  simp only [sendPlayers]
  split
  · exact (h p).charge x
  · exact h p

theorem keeps_report (p : Player) {state : PlayerState} (hstate : state.Sane) :
    s.Keeps { s with playerState := Function.update s.playerState p state } := by
  refine ⟨rfl, rfl, fun h q => ?_⟩
  rcases eq_or_ne q p with rfl | hne
  · simpa using hstate
  · simpa [hne] using h q

theorem keeps_stopResult (rb : Rebuffer) (pending failed : List Player) (p : Player)
    (stopped started : Bool) : s.Keeps (s.stopResult rb pending failed p stopped started) := by
  simp only [stopResult]
  split
  · refine ⟨rfl, rfl, fun h q => ?_⟩
    rcases eq_or_ne q p with rfl | hne
    · simpa using (h q).charge .start
    · simpa [hne] using h q
  · exact keeps_of_eq rfl rfl rfl

theorem keeps_rebufferStates {rb : Rebuffer} {matched nonMatched : List String}
    (hs : s.rebufferStates rb matched nonMatched = some s') : s.Keeps s' := by
  rw [rebufferStates] at hs
  split at hs
  · cases hs
    simp only [cookieStates]
    split_ifs <;> exact keeps_of_eq rfl rfl rfl
  · cases hs
    simp only [trackBeginStates]
    split_ifs <;> exact keeps_of_eq rfl rfl rfl
  · cases hs
    simp only [bufferStates]
    split_ifs <;> exact keeps_of_eq rfl rfl rfl
  · cases hs

theorem keeps_runRebuffer {rb : Rebuffer} {failed : List Player}
    (hs : s.runRebuffer rb failed = some s') : s.Keeps s' := by
  rw [runRebuffer] at hs
  split at hs
  · cases hs
    exact keeps_of_eq rfl rfl rfl
  · cases hs
  · cases hs
  · cases hs
    exact keeps_of_eq rfl rfl rfl
  · cases hs
  · split at hs
    · cases hs
    · split at hs
      · cases hs
        exact keeps_of_eq rfl rfl rfl
      · cases hs
        exact keeps_sendPlayers ..
  · cases hs
    exact keeps_of_eq rfl rfl rfl
  · cases hs
    exact keeps_sendPlayers ..
  · split at hs
    · cases hs
      exact keeps_sendPlayers ..
    · cases hs
      exact keeps_of_eq rfl rfl rfl
  · split at hs
    · cases hs
      exact keeps_sendPlayers ..
    · cases hs
      exact keeps_of_eq rfl rfl rfl
  · cases hs
  · cases hs
    exact keeps_of_eq rfl rfl rfl

theorem keeps_rebufferStep {rb : Rebuffer} (hok : s.SaneReports input)
    (hs : s.rebufferStep rb input = some s') : s.Keeps s' := by
  cases input with
  | run failed => exact keeps_runRebuffer hs
  | playerStates matched nonMatched => exact keeps_rebufferStates hs
  | stopResult p stopped started =>
    simp only [rebufferStep] at hs
    split at hs
    · obtain ⟨-, rfl⟩ := Option.ite_some_none_eq_some.mp hs
      exact keeps_stopResult ..
    · cases hs
  | report p state =>
    obtain ⟨-, rfl⟩ := Option.ite_some_none_eq_some.mp hs
    exact keeps_report p hok
  | players ps | streamEvent e | request ps cookie => exact absurd hs (by simp [rebufferStep])

/-! ### The thread at its channels -/

/-- A turn of the thread for the states of the players, with the first of them. -/
structure Evicts (player1 : Player) (s s' : BufferThread τ) : Prop where
  ends : s'.halted = s.halted
  oldest : ∃ k, s'.buffers = s.buffers.drop k
  amount : s'.bufferedAmount = totalSize s'.buffers
  enough : (s'.bufferedAmount : ℚ) ≤ playerAmount (s.playerState player1) s'.bitrate

theorem Accounted.evicts (h : s.Accounted) {player1 : Player} {rest : List Player}
    (hplayers : s.players.players = player1 :: rest) {matched : List String}
    (hmatched : s.players.isSubsetOf matched = true) :
    Evicts player1 s (s.handlePlayerStates matched) := by
  have hbitrate : 0 ≤ if s.trackBegin = some "o" then 320 else (s.playerState player1).bitrate := by
    split
    · norm_num
    · exact (h.sane player1).bitrate
  obtain ⟨k, hk, hle⟩ :=
    evict_totalSize ((h.sane player1).playerAmount_nonneg hbitrate) s.buffers
  have hrun : s.handlePlayerStates matched = { s with
      missedCookieCount := 0
      bitrate := if s.trackBegin = some "o" then 320 else (s.playerState player1).bitrate
      buffers := s.buffers.drop k
      bufferedAmount := totalSize (s.buffers.drop k) } := by
    rw [handlePlayerStates, hmatched, if_neg (by simp)]
    simp [hplayers, h.amount, hk]
  rw [hrun]
  exact ⟨rfl, ⟨k, rfl⟩, rfl, hle⟩

theorem playerState_handlePlayerStates (matched : List String) :
    (s.handlePlayerStates matched).playerState = s.playerState := by
  rw [handlePlayerStates]
  split
  · rfl
  · split
    · rfl
    · dsimp only
      split <;> rfl

theorem Accounted.handlePlayerStates (h : s.Accounted) (matched : List String) :
    (s.handlePlayerStates matched).Accounted := by
  refine ⟨?_, fun p => playerState_handlePlayerStates (s := s) matched ▸ h.sane p⟩
  by_cases hmatched : s.players.isSubsetOf matched = true
  · by_cases hplayers : s.players.players = []
    · rw [BufferThread.handlePlayerStates, hmatched, if_neg (by simp)]
      simp only [hplayers]
      exact h.amount
    · obtain ⟨player1, rest, hplayers⟩ := exists_cons_of_ne_nil hplayers
      exact (h.evicts hplayers hmatched).amount
  · rw [BufferThread.handlePlayerStates, if_pos (by simpa using hmatched)]
    exact h.amount

theorem Accounted.handleStreamEvent (h : s.Accounted) (e : StreamEvent τ) :
    (s.handleStreamEvent e).Accounted := by
  cases e with
  | acquireStarted app | flush => exact ⟨rfl, h.sane⟩
  | trackBegin contentLength trackInfo audioType =>
    simp only [BufferThread.handleStreamEvent]
    split <;> exact ⟨rfl, h.sane⟩
  | buffer data =>
    simp only [BufferThread.handleStreamEvent, keepBuffer]
    split
    · exact { h with }
    · refine ⟨?_, h.sane⟩
      have hamount := h.amount
      simp only [totalSize_append, totalSize_cons, totalSize_nil]
      omega
  | _ => exact { h with }

theorem Accounted.listen (h : s.Accounted) (hok : s.SaneReports input)
    (hs : s.listen input = some s') : s'.Accounted := by
  cases input with try obtain rfl := Option.some.inj hs
  | players ps | request ps cookie => exact { h with }
  | playerStates matched nonMatched => exact h.handlePlayerStates matched
  | streamEvent e => exact h.handleStreamEvent e
  | report p state => exact h.keeps (keeps_report p hok)
  | stopResult p stopped started | run failed => exact absurd hs (by simp [BufferThread.listen])

theorem Accounted.step (h : s.Accounted) (hok : s.SaneReports input)
    (hs : s.step input = some s') : s'.Accounted := by
  obtain ⟨-, hs⟩ := Option.ite_none_left_eq_some.mp hs
  split at hs
  · exact h.listen hok hs
  · exact h.keeps (keeps_rebufferStep hok hs)

theorem accounted_of_reachable (h : (bufferThread τ).ReachableUnder SaneReports s) :
    s.Accounted := by
  have hfree : (0 : ℤ) ≤ streambufSize := by decide
  exact h.invariant ⟨rfl, fun _ => ⟨hfree, le_rfl, le_rfl⟩⟩
    fun _ _ _ hs hok hstep => hs.step hok hstep

end BufferThread

/-- In every run with sane reports the amount that the thread counts is the size of
the buffers it keeps, and a turn for the states of the players ends, drops only the
oldest buffers and leaves no more than what the first player needs. -/
theorem buffers_accounted (s : BufferThread τ)
    (h : (bufferThread τ).ReachableUnder BufferThread.SaneReports s) :
    s.bufferedAmount = totalSize s.buffers ∧
      ∀ player1 rest matched, s.players.players = player1 :: rest →
        s.players.isSubsetOf matched = true →
          BufferThread.Evicts player1 s (s.handlePlayerStates matched) := by
  have hs := BufferThread.accounted_of_reachable h
  exact ⟨hs.amount, fun player1 rest matched hplayers hmatched => hs.evicts hplayers hmatched⟩

theorem buffers_accounted_three_bytes :
    ∃ s, (bufferThread ℕ).runFrom .init [.players onePlayer, .streamEvent (.buffer [1, 2, 3]),
          .report ⟨"p", 0⟩ { streambufFree := streambufSize }] = some s ∧
      s.bufferedAmount = 3 ∧ s.bufferedAmount = totalSize s.buffers ∧
      ∀ player1 rest matched, s.players.players = player1 :: rest →
        s.players.isSubsetOf matched = true →
          BufferThread.Evicts player1 s (s.handlePlayerStates matched) := by
  refine ⟨_, rfl, rfl, buffers_accounted _ ?_⟩
  have hsane : PlayerState.Sane { streambufFree := streambufSize } := ⟨le_rfl, le_rfl, le_rfl⟩
  exact .step (e := .report ⟨"p", 0⟩ { streambufFree := streambufSize })
    (.step (e := .streamEvent (.buffer [1, 2, 3]))
      (.step (e := .players onePlayer) .init trivial rfl) trivial rfl) hsane rfl

end BeepMusic.Distributor
