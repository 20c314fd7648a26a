import BeepMusic.Apps.App

/-!
The life of an app. An app that has been stopped stays stopped, unless a restart was pending
when it was stopped.
-/

namespace BeepMusic.Apps

open Lib List

namespace App

variable {s s' : App}

/-! ### What happens to an app by itself -/

/-- A condition that is not about the agents and survives their callbacks. -/
structure Kept (P : App → Prop) : Prop where
  agents : ∀ s agents registered, P s → P { s with agents := agents, registered := registered }
  cancel : ∀ s timer, P s → P (s.cancel timer)
  exit : ∀ s, P s → P s.exit
  kill : ∀ s session, P s → P { s.addTimer (.kill session) with killTimer := some s.nextTimer }
  onStarted : ∀ s, P s → P s.onStarted
  onStartTimeout : ∀ s, P s → P s.onStartTimeout
  onStopped : ∀ s, P s → P s.onStopped
  restart : ∀ s id delay, P s → (id, .restart delay) ∈ s.timers →
    P ((s.cancel (some id)).start none)

section

variable {P : App → Prop}

theorem Kept.removeAgent (h : Kept P) (hs : P s) (session : ℕ) : P (s.removeAgent session) := by
  rw [App.removeAgent]
  split
  · exact hs
  · refine h.agents _ _ _ ?_
    rw [onRemoved]
    split
    · exact h.onStopped s hs
    · exact h.exit s hs

theorem Kept.onUbusObjectAdd (h : Kept P) (hs : P s) : P s.onUbusObjectAdd := by
  rw [App.onUbusObjectAdd]
  split
  · exact hs
  · split
    · exact hs
    · refine h.cancel _ _ ?_
      rw [onAdded]
      split
      · exact h.onStarted _ (h.agents _ _ _ hs)
      · exact h.exit _ (h.agents _ _ _ hs)

theorem Kept.onUbusObjectRemove (h : Kept P) (hs : P s) : P s.onUbusObjectRemove := by
  rw [App.onUbusObjectRemove]
  split
  · exact hs
  · split
    · exact hs
    · exact h.agents _ _ _ (h.removeAgent hs _)

theorem Kept.onTimer (h : Kept P) (hs : P s) {id : ℕ} {timer : Timer}
    (hmem : (id, timer) ∈ s.timers) : P ((s.cancel (some id)).onTimer timer) := by
  have hcancel := h.cancel s (some id) hs
  cases timer with
  | start session =>
    rw [App.onTimer]
    split
    · exact hcancel
    · refine h.agents _ _ _ ?_
      rw [onAgentTimeout]
      split
      · exact h.onStartTimeout _ hcancel
      · exact hcancel
  | term session => exact h.kill _ session hcancel
  | kill session => exact h.exit _ hcancel
  | restart delay => exact h.restart s id delay hs hmem

/-- It survives every event but the calls of `start` and `stop`. -/
theorem Kept.step (h : Kept P) (hs : P s) {e : AppEvent}
    (hstart : ∀ onStarted, e = .start onStarted → P (s.start onStarted))
    (hstop : ∀ force onStopped, e = .stop force onStopped → P (s.stop force onStopped))
    (hstep : s.step e = some s') : P s' := by
  obtain ⟨-, hstep⟩ := Option.ite_none_left_eq_some.mp hstep
  cases e with try cases hstep
  | start onStarted =>
    exact hstart onStarted rfl
  | stop force onStopped =>
    exact hstop force onStopped rfl
  | add =>
    exact h.onUbusObjectAdd hs
  | remove =>
    exact h.onUbusObjectRemove hs
  | exit session =>
    dsimp only at hstep
    split at hstep
    · cases hstep
      exact h.removeAgent (h.agents _ _ _ hs) session
    · cases hstep
  | timer id =>
    obtain ⟨⟨id', timer⟩, hfind, rfl⟩ := Option.map_eq_some_iff.mp hstep
    have hid := find?_some hfind
    obtain rfl : id' = id := of_decide_eq_true hid
    exact h.onTimer hs (mem_of_find?_eq_some hfind)

end

/-! ### Stopped apps -/

/-- A start is deferred only while the app is stopping. -/
structure Regular (zombie : Bool) (s : App) : Prop where
  zombie : s.zombie = zombie
  restart : s.restart = true → s.state = .stopping

section

variable {z : Bool}

section

variable (h : s.Regular z)
include h

theorem Regular.restart_eq_false (hstate : s.state ≠ .stopping) : s.restart = false :=
  Bool.eq_false_iff.mpr fun hrestart => hstate (h.restart hrestart)

theorem Regular.start (onStarted : Option ℕ) : (s.start onStarted).Regular z := by
  rw [App.start]
  split
  · exact { h with }
  · exact { h with }
  · rename_i hstate
    have hno := h.restart_eq_false (by simp [hstate])
    rw [doStart]
    split
    · exact { h with }
    · exact ⟨h.zombie, fun hrestart => absurd (hno.symm.trans hrestart) Bool.false_ne_true⟩
  · rename_i hstate
    exact ⟨h.zombie, fun _ => hstate⟩

theorem Regular.doStop (hstate : s.state ≠ .stopping) (force : Bool) :
    (s.doStop force).Regular z := by
  have hno := h.restart_eq_false hstate
  rw [App.doStop]
  split
  · exact { h with }
  · exact ⟨h.zombie, fun hrestart => absurd (hno.symm.trans hrestart) Bool.false_ne_true⟩

theorem Regular.stop (force : Bool) (onStopped : Option ℕ) :
    (s.stop force onStopped).Regular z := by
  have hwait : (s.waitStopped onStopped).Regular z := { h with }
  rw [App.stop]
  split
  · exact { h with }
  · exact ⟨h.zombie, fun hrestart => absurd hrestart Bool.false_ne_true⟩
  · rename_i hstate
    exact hwait.doStop (by simp [waitStopped, hstate]) force
  · rename_i hstate
    obtain ⟨hzombie, hrestart⟩ := hwait.doStop (by simp [waitStopped, hstate]) force
    exact ⟨hzombie, hrestart⟩

theorem Regular.onStarted : s.onStarted.Regular z := by
  rw [App.onStarted]
  split
  · exact { h with }
  · rename_i hstate
    have hno := h.restart_eq_false fun hstopping => hstate (by simp [hstopping])
    exact ⟨h.zombie, fun hrestart => absurd (hno.symm.trans hrestart) Bool.false_ne_true⟩

theorem Regular.onStartTimeout : s.onStartTimeout.Regular z := by
  rw [App.onStartTimeout]
  split <;> exact { h with }

end

theorem clearTimers_frame (s : App) :
    s.clearTimers.sessionId = s.sessionId ∧ s.clearTimers.state = s.state ∧
      s.clearTimers.restart = s.restart := by
  exact ⟨rfl, rfl, rfl⟩

theorem Regular.clearTimers (h : s.Regular z) : s.clearTimers.Regular z := by
  exact { h with }

theorem Regular.onStopped (h : s.Regular z) : s.onStopped.Regular z := by
  have hcleared := h.clearTimers
  have hended : Regular z { s.clearTimers with state := .stopped, restart := false } :=
    ⟨hcleared.zombie, fun hrestart => absurd hrestart Bool.false_ne_true⟩
  cases hstate : s.state with
  | stopped =>
    simp only [App.onStopped, hstate]
    exact { hcleared with }
  | running | starting =>
    have hno := hcleared.restart_eq_false (by simp [s.clearTimers_frame.2.1, hstate])
    simp only [App.onStopped, hstate]
    exact ⟨hcleared.zombie, fun hrestart => absurd (hno.symm.trans hrestart) Bool.false_ne_true⟩
  | stopping =>
    simp only [App.onStopped, hstate]
    split
    · obtain ⟨hzombie, hrestart⟩ := hended.start none
      exact ⟨hzombie, hrestart⟩
    · rename_i hno
      exact ⟨hcleared.zombie, fun hrestart => absurd hrestart hno⟩

theorem kept_regular (z : Bool) : Kept (Regular z) where
  agents _ _ _ h := { h with }
  cancel _ _ h := { h with }
  exit _ h := { h with }
  kill _ _ h := { h with }
  onStarted _ h := h.onStarted
  onStartTimeout _ h := h.onStartTimeout
  onStopped _ h := h.onStopped
  restart s id _ h _ := Regular.start (s := s.cancel (some id)) { h with } none

theorem regular_of_reachable (h : (app z).Reachable s) : s.Regular z := by
  refine h.invariant ⟨rfl, fun hrestart => absurd hrestart Bool.false_ne_true⟩ ?_
  intro s e s' hs hstep
  exact (kept_regular z).step hs (fun onStarted _ => hs.start onStarted)
    (fun force onStopped _ => hs.stop force onStopped) hstep

end

/-- A restart of the app after its process has died is pending. -/
def RestartPending (s : App) : Prop := ∃ t ∈ s.timers, ∃ delay, t.2 = .restart delay

/-- The app rests in some session: nothing will start it. -/
structure Rests (session : ℕ) (s : App) : Prop where
  sessionId : s.sessionId = session
  state : s.state = .stopped ∨ s.state = .stopping
  restart : s.restart = false
  timers : ∀ id delay, (id, Timer.restart delay) ∉ s.timers

theorem kept_rests (session : ℕ) : Kept (Rests session) where
  agents _ _ _ h := { h with }
  cancel _ _ h := ⟨h.sessionId, h.state, h.restart,
    fun id delay hmem => h.timers id delay (mem_of_mem_filter hmem)⟩
  exit _ h := { h with }
  kill s k h := by
    refine { h with timers := fun id delay hmem => ?_ }
    exact h.timers id delay (mem_of_mem_addTimer hmem (by simp))
  onStarted s h := by
    rw [App.onStarted, if_pos (by rcases h.state with hs | hs <;> simp [hs])]
    exact { h with }
  onStartTimeout s h := by
    rw [App.onStartTimeout, if_pos (by rcases h.state with hs | hs <;> simp [hs])]
    exact { h with }
  onStopped s h := by
    have htimers : ∀ id delay, (id, Timer.restart delay) ∉ s.clearTimers.timers :=
      fun id delay hmem => h.timers id delay (mem_of_mem_filter (mem_of_mem_filter hmem))
    have hrestart := h.restart
    obtain ⟨hid, hstate, hno⟩ := s.clearTimers_frame
    rcases h.state with hs | hs
    · simp only [App.onStopped, hs]
      exact ⟨hid.trans h.sessionId, .inl (hstate.trans hs), hno.trans hrestart, htimers⟩
    · simp only [App.onStopped, hs, hrestart, Bool.false_eq_true, if_false]
      exact ⟨hid.trans h.sessionId, .inl rfl, hno.trans hrestart, htimers⟩
  restart s id delay h hmem := absurd hmem (h.timers id delay)

theorem Rests.stop {session : ℕ} (h : s.Rests session) (force : Bool) (onStopped : Option ℕ) :
    (s.stop force onStopped).Rests session := by
  rcases h.state with hstate | hstate
  · simp only [App.stop, hstate]
    exact { h with }
  · simp only [App.stop, hstate]
    exact { h with restart := rfl }

/-- A stop puts an app that is no zombie to rest, if no restart is pending. -/
theorem Regular.rests_stop (h : s.Regular false) (hpending : ¬s.RestartPending) (force : Bool)
    (onStopped : Option ℕ) : (s.stop force onStopped).Rests s.sessionId := by
  have htimers : ∀ id delay, (id, Timer.restart delay) ∉ s.timers :=
    fun id delay hmem => hpending ⟨_, hmem, delay, rfl⟩
  have hdoStop : ∀ id delay,
      (id, Timer.restart delay) ∉ (s.addTimer (.term s.sessionId)).timers := by
    intro id delay hmem
    exact htimers id delay (mem_of_mem_addTimer hmem (by simp))
  cases hstate : s.state with
  | stopped =>
    simp only [App.stop, hstate]
    exact ⟨rfl, .inl hstate, h.restart_eq_false (by simp [hstate]), htimers⟩
  | stopping =>
    simp only [App.stop, hstate]
    exact ⟨rfl, .inr hstate, rfl, htimers⟩
  | running =>
    simp only [App.stop, hstate, App.doStop, waitStopped, or_true, not_true_eq_false, if_false,
      h.zombie, Bool.false_and]
    exact ⟨rfl, .inr rfl, h.restart_eq_false (by simp [hstate]), hdoStop⟩
  | starting =>
    simp only [App.stop, hstate, App.doStop, waitStopped, true_or, not_true_eq_false, if_false,
      h.zombie, Bool.false_and]
    exact ⟨rfl, .inr rfl, h.restart_eq_false (by simp [hstate]), hdoStop⟩

end App

/-- A call of `start` from outside. -/
def AppEvent.IsStart (e : AppEvent) : Prop := ∃ onStarted, e = .start onStarted

/-- After a call of `stop`, when no restart is pending, no process is started until `start`
is called. -/
theorem stop_stays_stopped {s s' s'' : App} {force : Bool} {onStopped : Option ℕ}
    {es : List AppEvent} (h : (app false).Reachable s) (hpending : ¬s.RestartPending)
    (hstop : s.step (.stop force onStopped) = some s') (hes : ∀ e ∈ es, ¬e.IsStart)
    (hrun : (app false).runFrom s' es = some s'') : s''.sessionId = s.sessionId := by
  have hs' : s' = s.stop force onStopped := by
    unfold App.step at hstop
    split at hstop
    · cases hstop
    · exact (Option.some.inj hstop).symm
  have hrests := (App.regular_of_reachable h).rests_stop hpending force onStopped
  refine (System.runFrom_invariant (I := App.Rests s.sessionId) hrun (hs' ▸ hrests) ?_).sessionId
  intro t e t' he ht hstep
  exact (App.kept_rests s.sessionId).step ht
    (fun onStarted heq => absurd ⟨onStarted, heq⟩ (hes e he))
    (fun force onStopped _ => ht.stop force onStopped) hstep

theorem stop_stays_stopped_running :
    ∃ s s' s'' : App, (app false).Reachable s ∧ s.state = .running ∧
      s.step (.stop false none) = some s' ∧
      (app false).runFrom s' [.exit 1, .stop true none] = some s'' ∧
      s''.sessionId = s.sessionId := by
  obtain ⟨s, hs, htimers, hrunning, s', hstop, hsome⟩ := System.exists_reachable (app false)
    [.start none, .add]
    (fun s => s.timers = [] ∧ s.state = .running ∧ ∃ s' ∈ s.step (.stop false none),
      ((app false).runFrom s' [.exit 1, .stop true none]).isSome) (by decide +kernel)
  obtain ⟨s'', hrun⟩ := Option.isSome_iff_exists.mp hsome
  refine ⟨s, s', s'', hs, hrunning, hstop, hrun, stop_stays_stopped hs ?_ hstop ?_ hrun⟩
  · rintro ⟨t, hmem, -⟩
    rw [htimers] at hmem
    cases hmem
  · simp [AppEvent.IsStart]

/-- The process of a running app dies, the app is stopped before it is restarted, and the
restart goes ahead. -/
theorem stop_leaves_restart :
    ∃ s s' s'' : App, (app false).Reachable s ∧ s.step (.stop false none) = some s' ∧
      (app false).runFrom s' [.timer 1] = some s'' ∧ s''.sessionId = s.sessionId + 1 ∧
      (s''.agents s''.sessionId).alive = true := by
  obtain ⟨s, hs, s', hstop, s'', hrun, hend⟩ := System.exists_reachable (app false)
    [.start none, .add, .exit 1]
    (fun s => ∃ s' ∈ s.step (.stop false none), ∃ s'' ∈ (app false).runFrom s' [.timer 1],
      s''.sessionId = s.sessionId + 1 ∧ (s''.agents s''.sessionId).alive = true)
    (by decide +kernel)
  exact ⟨s, s', s'', hs, hstop, hrun, hend⟩

end BeepMusic.Apps
