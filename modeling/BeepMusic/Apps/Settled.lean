import BeepMusic.Apps.App

/-!
The app and its agents agree. The manager gives up (`os.exit`) when an app hears of its process
what it does not expect. It expects everything, as long as nothing happens to the app while it
starts and a process dies when it is told to.
-/

namespace BeepMusic.Apps

open Lib List

/-- The session whose process has been signalled when the timer was set. -/
def Timer.signalled : Timer → Option ℕ
  | .term session | .kill session => some session
  | .start _ | .restart _ => none

namespace App

variable {s s' : App}

/-- The timers of a session: the one for its start has the number that the agent has noted,
and those for its end are noted by the app and are cancelled with the session. -/
structure Clocked (s : App) : Prop where
  start : ∀ id k, (id, Timer.start k) ∈ s.timers →
    k ≤ s.sessionId ∧ id = (s.agents k).timer ∧ (s.agents k).started = false
  term : ∀ id k, (id, Timer.term k) ∈ s.timers →
    k = s.sessionId ∧ s.state ≠ .stopped ∧ s.termTimer = some id
  kill : ∀ id k, (id, Timer.kill k) ∈ s.timers →
    k = s.sessionId ∧ s.state ≠ .stopped ∧ s.killTimer = some id ∧
      ∀ id', (id', Timer.start k) ∉ s.timers

/-- The app and its agents agree: only the agent of the last session may not have been
removed, and it has not been as long as the app is not stopped. -/
structure Settled (s : App) : Prop where
  exited : s.exited = false
  clocked : s.Clocked
  removed : ∀ k, (s.agents k).onRemovedCalled = false ↔ k = s.sessionId ∧ s.state ≠ .stopped
  alive : ∀ k, (s.agents k).onRemovedCalled = false → (s.agents k).alive = true
  registered : ∀ k, s.registered = some k → k = s.sessionId
  started : s.state = .running ∨ s.state = .stopping → (s.agents s.sessionId).started = true

theorem Clocked.sublist (h : s.Clocked) {timers : List (ℕ × Timer)} (hsub : timers ⊆ s.timers) :
    Clocked { s with timers := timers } := by
  refine ⟨fun id k hmem => h.start id k (hsub hmem), fun id k hmem => h.term id k (hsub hmem),
    fun id k hmem => ?_⟩
  obtain ⟨hk, hstate, hid, hnone⟩ := h.kill id k (hsub hmem)
  exact ⟨hk, hstate, hid, fun id' hmem' => hnone id' (hsub hmem')⟩

theorem cancel_subset (s : App) (timer : Option ℕ) : (s.cancel timer).timers ⊆ s.timers :=
  fun _ hmem => mem_of_mem_filter hmem

section

variable (h : s.Settled)
include h

theorem Settled.cancel (timer : Option ℕ) : (s.cancel timer).Settled :=
  { h with clocked := h.clocked.sublist (cancel_subset s timer) }

theorem Settled.frame (restart : Bool) (restartDelay : ℕ)
    (onStartedCallbacks onStoppedCallbacks : List ℕ) (called : List (ℕ × Option ℕ)) :
    Settled { s with
      restart := restart
      restartDelay := restartDelay
      onStartedCallbacks := onStartedCallbacks
      onStoppedCallbacks := onStoppedCallbacks
      called := called } :=
  { h with clocked := { h.clocked with } }

theorem Settled.unregister : Settled { s with registered := none } :=
  { h with clocked := { h.clocked with }, registered := nofun }

theorem Settled.doStart (hstate : s.state = .stopped) : s.doStart.Settled := by
  have hremoved : ∀ k, (s.agents k).onRemovedCalled ≠ false := by
    intro k hk
    exact ((h.removed k).mp hk).2 hstate
  have hquiet : ∀ id k, (id, Timer.term k) ∉ s.timers ∧ (id, Timer.kill k) ∉ s.timers :=
    fun id k => ⟨fun hmem => (h.clocked.term id k hmem).2.1 hstate,
      fun hmem => (h.clocked.kill id k hmem).2.1 hstate⟩
  rw [App.doStart, if_neg (not_not_intro hstate)]
  let agents (k : ℕ) : Agent :=
    if k = s.sessionId + 1 then ⟨false, false, true, s.nextTimer⟩ else s.agents k
  have hself : agents (s.sessionId + 1) = ⟨false, false, true, s.nextTimer⟩ := if_pos rfl
  have hothers : ∀ k ≠ s.sessionId + 1, agents k = s.agents k := fun k hk => if_neg hk
  refine ⟨h.exited, ⟨fun id k hmem => ?_, fun id k hmem => ?_, fun id k hmem => ?_⟩, fun k => ?_,
    fun k hk => ?_, fun k hk => (Option.some.inj hk).symm, fun hrun => ?_⟩
  · show k ≤ s.sessionId + 1 ∧ id = (agents k).timer ∧ (agents k).started = false
    rcases mem_append.mp hmem with hold | hnew
    · obtain ⟨hle, hid, hnot⟩ := h.clocked.start id k (cancel_subset s _ hold)
      rw [hothers k (by omega)]
      exact ⟨by omega, hid, hnot⟩
    · obtain ⟨rfl, hk⟩ := Prod.mk.inj (mem_singleton.mp hnew)
      obtain rfl := Timer.start.inj hk
      rw [hself]
      exact ⟨Nat.le_refl _, rfl, rfl⟩
  · exact absurd (cancel_subset s _ (mem_of_mem_addTimer hmem (by simp))) (hquiet id k).1
  · exact absurd (cancel_subset s _ (mem_of_mem_addTimer hmem (by simp))) (hquiet id k).2
  · show (agents k).onRemovedCalled = false ↔
      k = s.sessionId + 1 ∧ AppState.starting ≠ .stopped
    by_cases hk : k = s.sessionId + 1
    · rw [hk, hself]
      exact iff_of_true rfl ⟨rfl, by decide⟩
    · rw [hothers k hk]
      exact iff_of_false (hremoved k) fun hnew => hk hnew.1
  · show (agents k).alive = true
    change (agents k).onRemovedCalled = false at hk
    by_cases hne : k = s.sessionId + 1
    · rw [hne, hself]
    · rw [hothers k hne] at hk ⊢
      exact h.alive k hk
  · rcases hrun with hrun | hrun <;> cases hrun

theorem Settled.start (onStarted : Option ℕ) : (s.start onStarted).Settled := by
  rw [App.start]
  split
  · exact h.frame _ _ _ _ _
  · exact h.frame _ _ _ _ _
  · rename_i hstate
    exact (h.frame _ _ _ _ _ : (s.waitStarted onStarted).Settled).doStart hstate
  · exact h.frame _ _ _ _ _

theorem Settled.doStop (hstate : s.state = .running)
    (hterm : ∀ t ∈ s.timers, t.2 ≠ .term s.sessionId) (force : Bool) :
    (s.doStop force).Settled := by
  have hne : (if (s.zombie && !force) = true then s.state else .stopping) ≠ .stopped := by
    split
    · simp [hstate]
    · decide
  have hold : ∀ id k, (id, Timer.term k) ∉ s.timers := by
    intro id k hmem
    exact hterm _ hmem (congrArg Timer.term (h.clocked.term id k hmem).1)
  rw [App.doStop, if_neg (not_not_intro (.inr hstate))]
  refine ⟨h.exited, ⟨fun id k hmem => ?_, fun id k hmem => ?_, fun id k hmem => ?_⟩, fun k => ?_,
    h.alive, h.registered, fun _ => h.started (.inl hstate)⟩
  · exact h.clocked.start id k (mem_of_mem_addTimer hmem (by simp))
  · rcases mem_append.mp hmem with hmem | hnew
    · exact absurd hmem (hold id k)
    · obtain ⟨rfl, hk⟩ := Prod.mk.inj (mem_singleton.mp hnew)
      exact ⟨Timer.term.inj hk, hne, rfl⟩
  · obtain ⟨hk, -, hid, hnone⟩ := h.clocked.kill id k (mem_of_mem_addTimer hmem (by simp))
    exact ⟨hk, hne, hid, fun id' hmem' => hnone id' (mem_of_mem_addTimer hmem' (by simp))⟩
  · refine (h.removed k).trans (and_congr_right fun _ => iff_of_true ?_ hne)
    simp [hstate]

theorem Settled.stop (hstarting : s.state ≠ .starting)
    (hterm : s.state = .running → ∀ t ∈ s.timers, t.2 ≠ .term s.sessionId) (force : Bool)
    (onStopped : Option ℕ) : (s.stop force onStopped).Settled := by
  rw [App.stop]
  split
  · exact h.frame _ _ _ _ _
  · exact h.frame _ _ _ _ _
  · rename_i hstate
    exact (h.frame _ _ _ _ _ : (s.waitStopped onStopped).Settled).doStop hstate (hterm hstate) force
  · rename_i hstate
    exact absurd hstate hstarting

theorem Settled.starting (hstopped : s.state ≠ .stopped)
    (hnot : (s.agents s.sessionId).started ≠ true) : s.state = .starting := by
  cases hstate : s.state with
  | stopped => exact absurd hstate hstopped
  | starting => rfl
  | running => exact absurd (h.started (.inl hstate)) hnot
  | stopping => exact absurd (h.started (.inr hstate)) hnot

/-- The object of the app appears while the app is starting. -/
theorem Settled.onUbusObjectAdd
    (hlate : ∀ k ∈ s.registered, (s.agents k).started = true ∨
      (s.agents k).onRemovedCalled = false) : s.onUbusObjectAdd.Settled := by
  rw [App.onUbusObjectAdd]
  split
  · exact h
  · rename_i k hk
    split
    · exact h
    · rename_i hnot
      obtain rfl := h.registered k hk
      have hremoved := (hlate _ hk).resolve_left hnot
      have hstopped := ((h.removed _).mp hremoved).2
      have hstate := h.starting hstopped hnot
      have hsession : (s.setAgent s.sessionId (s.agents s.sessionId).setStarted).sessionId =
          s.sessionId := rfl
      have hsame : (s.setAgent s.sessionId (s.agents s.sessionId).setStarted).state = .starting :=
        hstate
      rw [onAdded, if_pos hsession, App.onStarted, if_neg (not_not_intro hsame)]
      have hne : AppState.running ≠ .stopped := by decide
      have hmark := agents_setAgent Agent.onRemovedCalled s s.sessionId
        (s.agents s.sessionId).setStarted rfl
      refine ⟨h.exited, ⟨fun id k hmem => ?_, fun id k hmem => ?_, fun id k hmem => ?_⟩,
        fun k => ?_,
        fun k hk => ?_, h.registered, fun _ => ?_⟩
      · obtain ⟨hold, hid⟩ := mem_filter.mp hmem
        obtain ⟨hle, htimer, hstarted⟩ := h.clocked.start id k hold
        have hne : k ≠ s.sessionId := by
          rintro rfl
          exact of_decide_eq_true hid (congrArg some htimer)
        rw [← agents_setAgent_of_ne s _ hne] at htimer hstarted
        exact ⟨hle, htimer, hstarted⟩
      · obtain ⟨heq, -, hid⟩ := h.clocked.term id k (mem_of_mem_filter hmem)
        exact ⟨heq, hne, hid⟩
      · obtain ⟨heq, -, hid, hnone⟩ := h.clocked.kill id k (mem_of_mem_filter hmem)
        exact ⟨heq, hne, hid, fun id' hmem' => hnone id' (mem_of_mem_filter hmem')⟩
      · refine (Iff.of_eq (congrArg (· = false) (hmark k))).trans ((h.removed k).trans ?_)
        exact and_congr_right fun _ => iff_of_true hstopped hne
      · exact (agents_setAgent Agent.alive s _ _ (by rfl) k).trans
          (h.alive k ((hmark k).symm.trans hk))
      · exact congrArg Agent.started (agents_setAgent_self s _ _)

/-! A session ends. Its agent is marked after the app has been told, which makes no difference
to the app: it is easier to mark it before. -/

end

/-- All agents are removed, and the app has not been told of the last. -/
structure Removing (s : App) : Prop where
  exited : s.exited = false
  clocked : s.Clocked
  removed : ∀ k, (s.agents k).onRemovedCalled = true
  registered : ∀ k, s.registered = some k → k = s.sessionId

theorem Removing.settled (h : s.Removing) (restart : Bool) :
    Settled { s.clearTimers with state := .stopped, restart := restart } := by
  have hremoved : ∀ k, (s.agents k).onRemovedCalled ≠ false := by
    intro k hk
    cases (h.removed k).symm.trans hk
  refine ⟨h.exited, ⟨fun id k hmem => ?_, fun id k hmem => ?_, fun id k hmem => ?_⟩, fun k => ?_,
    fun k hk => absurd hk (hremoved k), h.registered, fun hrun => ?_⟩
  · exact h.clocked.start id k (cancel_subset _ _ (cancel_subset _ _ hmem))
  · obtain ⟨hold, hid⟩ := mem_filter.mp (mem_of_mem_filter hmem)
    exact absurd (h.clocked.term id k hold).2.2.symm (of_decide_eq_true hid)
  · obtain ⟨hold, hid⟩ := mem_filter.mp hmem
    exact absurd (h.clocked.kill id k (mem_of_mem_filter hold)).2.2.1.symm
      (of_decide_eq_true hid)
  · exact iff_of_false (hremoved k) fun hk => hk.2 rfl
  · rcases hrun with hrun | hrun <;> cases hrun

theorem Removing.scheduleRestart (h : s.Removing) : s.clearTimers.scheduleRestart.Settled := by
  have hsettled := h.settled s.restart
  refine { hsettled with
    clocked := ⟨fun id k hmem => ?_, fun id k hmem => ?_, fun id k hmem => ?_⟩ }
  · exact hsettled.clocked.start id k (mem_of_mem_addTimer hmem (by simp))
  · exact hsettled.clocked.term id k (mem_of_mem_addTimer hmem (by simp))
  · exact absurd rfl (hsettled.clocked.kill id k (mem_of_mem_addTimer hmem (by simp))).2.1

theorem Removing.onStopped (h : s.Removing) (hstopped : s.state ≠ .stopped) :
    s.onStopped.Settled := by
  cases hstate : s.state with
  | stopped => exact absurd hstate hstopped
  | running | starting =>
    simp only [App.onStopped, hstate]
    exact h.scheduleRestart
  | stopping =>
    simp only [App.onStopped, hstate]
    split
    · exact ((h.settled false).start none).frame _ _ _ _ _
    · exact (h.settled s.restart).frame _ _ _ _ _

theorem startAgent_setAgent (s : App) {k : ℕ} (hk : k ≠ s.sessionId) (agent : Agent) :
    s.startAgent.setAgent k agent = (s.setAgent k agent).startAgent := by
  have hagents : (s.startAgent.setAgent k agent).agents =
      (s.setAgent k agent).startAgent.agents := by
    funext j
    show (if j = k then agent else if j = s.sessionId then _ else s.agents j) =
      (if j = s.sessionId then _ else if j = k then agent else s.agents j)
    split
    · rename_i hj
      rw [if_neg (hj ▸ hk)]
    · rfl
  exact congrArg (fun agents => { s.startAgent with agents := agents }) hagents

theorem start_setAgent (hstate : s.state = .stopped) (agent : Agent) :
    (s.start none).setAgent s.sessionId agent = (s.setAgent s.sessionId agent).start none := by
  have hsame : (s.setAgent s.sessionId agent).state = .stopped := hstate
  have hwait : (s.waitStarted none).state = .stopped := hstate
  have hwaitSame : ((s.setAgent s.sessionId agent).waitStarted none).state = .stopped := hstate
  simp only [App.start, hstate, hsame]
  rw [App.doStart, if_neg (not_not_intro hwait), App.doStart, if_neg (not_not_intro hwaitSame)]
  exact startAgent_setAgent _ (Nat.ne_of_lt (Nat.lt_succ_self _)) agent

/-- The app does not look at the marks of its agents when a session ends. -/
theorem onStopped_setAgent (s : App) (agent : Agent) :
    s.onStopped.setAgent s.sessionId agent = (s.setAgent s.sessionId agent).onStopped := by
  have hsame : (s.setAgent s.sessionId agent).state = s.state := rfl
  cases hstate : s.state with
  | stopped | running | starting =>
    simp only [App.onStopped, hsame, hstate]
    rfl
  | stopping =>
    have hrestart : (s.setAgent s.sessionId agent).restart = s.restart := rfl
    simp only [App.onStopped, hsame, hstate, hrestart]
    split
    · exact congrArg notifyStopWaiters
        (start_setAgent (s := { s.clearTimers with state := .stopped, restart := false }) rfl
          agent)
    · rfl

theorem onStopped_agents (s : App) : s.onStopped.agents s.sessionId = s.agents s.sessionId := by
  cases hstate : s.state with
  | stopped | running | starting =>
    simp only [App.onStopped, hstate]
    rfl
  | stopping =>
    simp only [App.onStopped, hstate]
    split
    · exact if_neg (Nat.ne_of_lt (Nat.lt_succ_self _))
    · rfl

theorem removeAgent_eq {k : ℕ} (hk : s.sessionId = k)
    (h : (s.agents k).onRemovedCalled = false) :
    s.removeAgent k = (s.setAgent k (s.agents k).setRemoved).onStopped := by
  subst hk
  rw [removeAgent, if_neg (by simp [h])]
  simp only [onRemoved, if_true]
  rw [onStopped_agents, onStopped_setAgent]

/-- The agent of the last session is marked, whether its process still runs or not. -/
theorem Settled.removing (h : s.Settled) (agent : Agent) (hremoved : agent.onRemovedCalled = true)
    (htimer : agent.timer = (s.agents s.sessionId).timer)
    (hstarted : agent.started = (s.agents s.sessionId).started) :
    (s.setAgent s.sessionId agent).Removing := by
  refine ⟨h.exited, ⟨fun id k hmem => ?_, h.clocked.term, h.clocked.kill⟩, fun k => ?_,
    h.registered⟩
  · obtain ⟨hle, hid, hnot⟩ := h.clocked.start id k hmem
    exact ⟨hle, hid.trans (agents_setAgent Agent.timer s _ _ htimer k).symm,
      (agents_setAgent Agent.started s _ _ hstarted k).trans hnot⟩
  · rcases eq_or_ne k s.sessionId with rfl | hk
    · rw [agents_setAgent_self, hremoved]
    · rw [agents_setAgent_of_ne s agent hk]
      exact eq_true_of_ne_false fun hr => hk ((h.removed k).mp hr).1

theorem Settled.removeAgent (h : s.Settled) (k : ℕ) : (s.removeAgent k).Settled := by
  cases hremoved : (s.agents k).onRemovedCalled with
  | true =>
    rw [App.removeAgent, if_pos hremoved]
    exact h
  | false =>
    obtain ⟨rfl, hstate⟩ := (h.removed k).mp hremoved
    rw [removeAgent_eq rfl hremoved]
    exact (h.removing (s.agents s.sessionId).setRemoved rfl rfl rfl).onStopped hstate

theorem setAgent_setAgent (s : App) (k : ℕ) (agent agent' : Agent) :
    (s.setAgent k agent).setAgent k agent' = s.setAgent k agent' := by
  have hagents :
      ((s.setAgent k agent).setAgent k agent').agents = (s.setAgent k agent').agents := by
    funext j
    show (if j = k then agent' else if j = k then agent else s.agents j) =
      (if j = k then agent' else s.agents j)
    split <;> rfl
  exact congrArg (fun agents => { s with agents := agents }) hagents

theorem Settled.onExit (h : s.Settled) (k : ℕ) : (s.onExit k).Settled := by
  have hself := agents_setAgent_self s k (s.agents k).setDead
  rw [App.onExit]
  cases hremoved : (s.agents k).onRemovedCalled with
  | true =>
    rw [App.removeAgent, if_pos (by rw [hself]; exact hremoved)]
    have hmark := agents_setAgent Agent.onRemovedCalled s k (s.agents k).setDead rfl
    have hstarted := agents_setAgent Agent.started s k (s.agents k).setDead rfl
    refine ⟨h.exited, ⟨fun id j hmem => ?_, h.clocked.term, h.clocked.kill⟩, fun j => ?_,
      fun j hj => ?_, h.registered, fun hrun => (hstarted _).trans (h.started hrun)⟩
    · obtain ⟨hle, hid, hnot⟩ := h.clocked.start id j hmem
      exact ⟨hle, hid.trans (agents_setAgent Agent.timer s _ _ (by rfl) j).symm,
        (hstarted j).trans hnot⟩
    · rw [hmark j]
      exact h.removed j
    · rw [hmark j] at hj
      have hne : j ≠ k := by
        rintro rfl
        cases hremoved.symm.trans hj
      rw [agents_setAgent_of_ne s _ hne]
      exact h.alive j hj
  | false =>
    obtain ⟨rfl, hstate⟩ := (h.removed k).mp hremoved
    have hsession : (s.setAgent s.sessionId (s.agents s.sessionId).setDead).sessionId =
        s.sessionId := rfl
    rw [removeAgent_eq hsession (by rw [hself]; exact hremoved), hself, setAgent_setAgent]
    exact (h.removing (s.agents s.sessionId).setDead.setRemoved rfl rfl rfl).onStopped hstate

theorem Settled.onUbusObjectRemove (h : s.Settled) : s.onUbusObjectRemove.Settled := by
  rw [App.onUbusObjectRemove]
  split
  · exact h
  · split
    · exact h
    · exact (h.removeAgent _).unregister

theorem Settled.onStartTimeout (h : s.Settled) (hstate : s.state = .starting)
    (hstart : ∀ id, (id, Timer.start s.sessionId) ∉ s.timers)
    (hkill : ∀ id k, (id, Timer.kill k) ∉ s.timers) : s.onStartTimeout.Settled := by
  rw [App.onStartTimeout, if_neg (not_not_intro hstate)]
  refine { h with clocked := ⟨fun id k hmem => ?_, fun id k hmem => ?_, fun id k hmem => ?_⟩ }
  · exact h.clocked.start id k (mem_of_mem_addTimer hmem (by simp))
  · exact h.clocked.term id k (mem_of_mem_addTimer hmem (by simp))
  · rcases mem_append.mp hmem with hmem | hnew
    · exact absurd hmem (hkill id k)
    · obtain ⟨rfl, hk⟩ := Prod.mk.inj (mem_singleton.mp hnew)
      obtain rfl := Timer.kill.inj hk
      have hne : s.state ≠ .stopped := by simp [hstate]
      exact ⟨rfl, hne, rfl, fun id' hmem' => hstart id' (mem_of_mem_addTimer hmem' (by simp))⟩

/-- The start timer of the running session expires only while the app is starting. -/
theorem Settled.onTimer_start (h : s.Settled) {id k : ℕ} (hmem : (id, Timer.start k) ∈ s.timers) :
    ((s.cancel (some id)).onTimer (.start k)).Settled := by
  obtain ⟨-, hid, hnot⟩ := h.clocked.start id k hmem
  rw [App.onTimer]
  split
  · exact h.cancel _
  · rename_i hremoved
    obtain ⟨rfl, hstopped⟩ := (h.removed k).mp (eq_false_of_ne_true hremoved)
    have hstate := h.starting hstopped (by simp [hnot])
    have hsession : (s.cancel (some id)).sessionId = s.sessionId := rfl
    rw [onAgentTimeout, if_pos hsession]
    refine ((h.cancel (some id)).onStartTimeout hstate (fun id' hmem' => ?_)
      fun id' k hmem' => ?_).unregister
    · obtain ⟨hold, hne⟩ := mem_filter.mp hmem'
      have hid' := (h.clocked.start id' s.sessionId hold).2.1
      exact of_decide_eq_true hne (congrArg some (hid'.trans hid.symm))
    · obtain ⟨rfl, -, -, hnone⟩ := h.clocked.kill id' k (mem_of_mem_filter hmem')
      exact hnone id hmem

theorem Settled.onTimer (h : s.Settled) {id : ℕ} {timer : Timer} (hmem : (id, timer) ∈ s.timers)
    (hdead : ∀ k ∈ timer.signalled, (s.agents k).alive = false) :
    ((s.cancel (some id)).onTimer timer).Settled := by
  -- a session that is not removed has a process
  have hsignalled : ∀ k ∈ timer.signalled, ¬(k = s.sessionId ∧ s.state ≠ .stopped) := by
    intro k hk hlast
    cases (hdead k hk).symm.trans (h.alive k ((h.removed k).mpr hlast))
  cases timer with
  | start k => exact h.onTimer_start hmem
  | term k =>
    obtain ⟨hk, hstate, -⟩ := h.clocked.term id k hmem
    exact absurd ⟨hk, hstate⟩ (hsignalled k rfl)
  | kill k =>
    obtain ⟨hk, hstate, -⟩ := h.clocked.kill id k hmem
    exact absurd ⟨hk, hstate⟩ (hsignalled k rfl)
  | restart delay => exact (h.cancel _).start none

/-- A process is gone when the timer expires that was set with its signal. -/
def Timely (s : App) : AppEvent → Prop
  | .timer id => ∀ t ∈ s.timers, t.1 = id → ∀ k ∈ t.2.signalled, (s.agents k).alive = false
  | _ => True

/-- An app is not stopped while it starts, a zombie is not stopped twice in one session, and the
object of a process does not appear after the end of the process. -/
def Orderly (s : App) : AppEvent → Prop
  | .stop _ _ => s.state ≠ .starting ∧
      (s.state = .running → ∀ t ∈ s.timers, t.2 ≠ .term s.sessionId)
  | .add => ∀ k ∈ s.registered, (s.agents k).started = true ∨ (s.agents k).onRemovedCalled = false
  | _ => True

instance (s : App) (e : AppEvent) : Decidable (s.Timely e) :=
  match e with
  | .timer id => inferInstanceAs (Decidable (∀ t ∈ s.timers, t.1 = id →
      ∀ k ∈ t.2.signalled, (s.agents k).alive = false))
  | .start _ | .stop _ _ | .add | .remove | .exit _ => inferInstanceAs (Decidable True)

instance (s : App) (e : AppEvent) : Decidable (s.Orderly e) :=
  match e with
  | .stop _ _ => inferInstanceAs (Decidable (_ ∧ _))
  | .add => inferInstanceAs (Decidable (∀ k ∈ s.registered,
      (s.agents k).started = true ∨ (s.agents k).onRemovedCalled = false))
  | .start _ | .remove | .exit _ | .timer _ => inferInstanceAs (Decidable True)

theorem Settled.step {e : AppEvent} (h : s.Settled) (htimely : s.Timely e) (horderly : s.Orderly e)
    (hstep : s.step e = some s') : s'.Settled := by
  unfold App.step at hstep
  rw [if_neg (by simp [h.exited])] at hstep
  cases e with try cases hstep
  | start onStarted => exact h.start onStarted
  | stop force onStopped => exact h.stop horderly.1 horderly.2 force onStopped
  | add => exact h.onUbusObjectAdd horderly
  | remove => exact h.onUbusObjectRemove
  | exit session =>
    obtain ⟨-, rfl⟩ := Option.ite_some_none_eq_some.mp hstep
    exact h.onExit session
  | timer id =>
    obtain ⟨⟨id', timer⟩, hfind, rfl⟩ := Option.map_eq_some_iff.mp hstep
    have hid := find?_some hfind
    obtain rfl : id' = id := of_decide_eq_true hid
    have hmem := mem_of_find?_eq_some hfind
    exact h.onTimer hmem fun k hk => htimely _ hmem rfl k hk

theorem settled_initial (zombie : Bool) : (initial zombie).Settled := by
  refine ⟨rfl, ⟨fun id k hmem => ?_, fun id k hmem => ?_, fun id k hmem => ?_⟩,
    fun k => iff_of_false (by simp [initial]) fun hk => hk.2 rfl, fun k hk => ?_, fun k hk => ?_,
    fun hrun => ?_⟩
  all_goals simp_all [initial]

end App

/-- The manager does not exit, if processes die when they are told to and an app is left alone
while it starts. -/
theorem manager_does_not_exit {zombie : Bool} {s : App}
    (h : (app zombie).ReachableUnder (fun s e => s.Timely e ∧ s.Orderly e) s) :
    s.exited = false := by
  refine (h.invariant (I := App.Settled) (App.settled_initial zombie) ?_).exited
  intro s e s' hs hok hstep
  exact hs.step hok.1 hok.2 hstep

/-- An app that starts, is stopped, starts again, dies and is restarted. -/
theorem manager_does_not_exit_restarted :
    ∃ s : App, (app false).ReachableUnder (fun s e => s.Timely e ∧ s.Orderly e) s ∧
      s.sessionId = 3 ∧ s.state = .running ∧ s.exited = false := by
  obtain ⟨s, -, hs, hsession, hstate⟩ := System.exists_reachableUnder (app false)
    (fun s e => s.Timely e ∧ s.Orderly e)
    [.start none, .add, .stop false none, .start none, .exit 1, .add, .exit 2, .timer 3, .add]
    (fun s => s.sessionId = 3 ∧ s.state = .running) (by decide +kernel) (by decide +kernel)
  exact ⟨s, hs, hsession, hstate, manager_does_not_exit hs⟩

/-- An app is stopped while it starts, and its object appears before the process has died. -/
theorem manager_exits_on_add :
    ∃ s : App, (app false).ReachableUnder App.Timely s ∧ s.exited = true := by
  obtain ⟨s, -, hs, htest⟩ := System.exists_reachableUnder (app false) App.Timely
    [.start none, .stop false none, .add] (fun s => s.exited) (by decide +kernel)
    (by decide +kernel)
  exact ⟨s, hs, htest⟩

end BeepMusic.Apps
