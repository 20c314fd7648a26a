import BeepMusic.Wifisetup.Daemon

/-!
Whether the background thread learns of what it is asked to do. If it waits for a request
that it has not been signalled, then the uloop thread is about to signal it, as long as no
signal comes before it waits and the shutdown is not asked for while it waits.
-/

namespace BeepMusic.Wifisetup

open Lib Option

/-- The background thread is asked for something. -/
def BgState.request : BgState → Bool
  | .scan | .connect => true
  | .error | .idle | .starting | .stopping | .confirmWait => false

/-- The background thread does not wait before it has been at the condition of its loop. -/
def BgPc.busy : BgPc → Bool
  | .test | .toWait | .waiting false => false
  | _ => true

namespace Daemon

variable (s : Daemon)

/-- There is something to do for the background thread. -/
def Requested : Prop :=
  s.bgState = .scan ∨ s.bgState = .connect ∨ s.shutdownState ≠ .run

/-- If the background thread waits while there is something to do, it has been signalled. -/
def NoLostRequest : Prop :=
  ∀ signalled, s.bg = .waiting signalled → s.Requested → signalled = true

/-- The background thread waits without a signal, or is just about to wait. -/
def Settling : Prop := s.bg = .toWait ∨ s.bg = .waiting false
deriving Decidable

/-- The background thread will wait, or waits, without a signal, if nothing happens. -/
def WillWait : Prop := s.Settling ∨ s.bg = .test ∧ s.shutdownState = .run
deriving Decidable

/-- What the uloop thread does at the right time: a signal is sent when the background thread
waits already or will not wait any more, and the shutdown is asked for neither while it waits
nor after its end. -/
def timely : DaemonEvent → Prop
  | .uloop => s.uloop = .signal → s.WillWait → s.bg = .waiting false
  | .shutdown _ => ¬ s.Settling ∧ s.shutdownState ≠ .joining
  | .connect _ malloc => malloc = true ∨ ¬ s.Settling ∧ s.shutdownState ≠ .joining
  | .interval | .status | .bg _ => True

instance (s : Daemon) : (e : DaemonEvent) → Decidable (s.timely e)
  | .uloop => inferInstanceAs (Decidable (_ → _))
  | .shutdown _ => inferInstanceAs (Decidable (_ ∧ _))
  | .connect _ _ => inferInstanceAs (Decidable (_ ∨ _))
  | .interval | .status | .bg _ => inferInstanceAs (Decidable True)

/-- The invariant. -/
structure Awake (s : Daemon) : Prop where
  run : s.Settling → s.shutdownState = .run
  about : s.WillWait → s.bgState.request = true → s.uloop = .signal
  ended : s.shutdownState = .joining → s.bg = .ended

variable {s s' : Daemon}

theorem noLostRequest_of_awake (h : s.Awake) (hsignal : s.uloop ≠ .signal) : s.NoLostRequest := by
  intro signalled hbg hrequested
  by_contra hnot
  rw [Bool.not_eq_true] at hnot
  have hsettling : s.Settling := .inr (hnot ▸ hbg)
  rcases hrequested with hscan | hconnect | hshutdown
  · exact hsignal (h.about (.inl hsettling) (hscan ▸ rfl))
  · exact hsignal (h.about (.inl hsettling) (hconnect ▸ rfl))
  · exact hshutdown (h.run hsettling)

theorem Awake.of_eq (h : s.Awake) (hbg : s'.bg = s.bg) (hstate : s'.bgState = s.bgState)
    (hshutdown : s'.shutdownState = s.shutdownState)
    (hsignal : s.uloop = .signal → s'.uloop = .signal) : s'.Awake := by
  refine ⟨?_, ?_, ?_⟩
  · simpa only [Settling, hbg, hshutdown] using h.run
  · simpa only [WillWait, Settling, hbg, hstate, hshutdown] using
      fun hwait hrequest => hsignal (h.about hwait hrequest)
  · simpa only [hbg, hshutdown] using h.ended

/-- The background thread has something else to do before it waits. -/
theorem Awake.of_not_willWait (hnot : ¬ s.WillWait)
    (hended : s.shutdownState = .joining → s.bg = .ended) : s.Awake :=
  ⟨fun hsettling => absurd (.inl hsettling) hnot, fun hwait => absurd hwait hnot, hended⟩

/-- The background thread is at the condition of its loop and has nothing to do. -/
theorem Awake.of_test (hbg : s.bg = .test) (hidle : s.bgState.request = false)
    (hrun : s.shutdownState ≠ .joining) : s.Awake := by
  refine ⟨?_, ?_, fun hjoining => absurd hjoining hrun⟩
  · rintro (hsettling | hsettling) <;> rw [hbg] at hsettling <;> cases hsettling
  · intro _ hrequest
    rw [hidle] at hrequest
    cases hrequest

theorem Awake.not_joining (h : s.Awake) (hbg : s.bg ≠ .ended) : s.shutdownState ≠ .joining :=
  fun hjoining => hbg (h.ended hjoining)

/-- Where the background thread goes on after a connection; it stays if the daemon aborts. -/
theorem connected_spec (s : Daemon) (answer : BgAnswer) :
    (s.connected answer).bgState = s.bgState ∧
      (s.connected answer).shutdownState = s.shutdownState ∧
      ((∃ save, (s.connected answer).bg = .askStop save) ∨
        (∃ confirm, (s.connected answer).bg = .finish confirm) ∨
        (s.connected answer).bg = s.bg) := by
  unfold connected
  dsimp only
  repeat' split
  all_goals first
    | exact ⟨rfl, rfl, .inl ⟨_, rfl⟩⟩
    | exact ⟨rfl, rfl, .inr (.inl ⟨_, rfl⟩)⟩
    | exact ⟨rfl, rfl, .inr (.inr rfl)⟩

theorem Awake.of_busy (h : s.Awake) (hbg : s.bg ≠ .ended)
    (hshutdown : s'.shutdownState = s.shutdownState) (hbusy : s'.bg.busy = true) : s'.Awake := by
  refine .of_not_willWait ?_ fun hjoining => absurd (hshutdown ▸ hjoining) (h.not_joining hbg)
  rintro ((hwait | hwait) | ⟨hwait, -⟩) <;> rw [hwait] at hbusy <;> cases hbusy

theorem awake_bgStep (h : s.Awake) {answer : BgAnswer} (hstep : s.bgStep answer = some s') :
    s'.Awake := by
  have hjoining : s.bg ≠ .ended → s.shutdownState ≠ .joining := h.not_joining
  have hbusy : s.bg ≠ .ended → s'.shutdownState = s.shutdownState → s'.bg.busy = true →
      s'.Awake := h.of_busy
  unfold bgStep at hstep
  cases hbg : s.bg with simp only [hbg, Option.some.injEq, ne_eq, reduceCtorEq, not_false_eq_true,
      true_implies] at hstep hjoining hbusy
  | setMode =>
    subst hstep
    split_ifs at hbusy ⊢
    · exact .of_test rfl rfl hjoining
    · exact hbusy rfl rfl
  | failed | join =>
    subst hstep
    exact .of_not_willWait (by simp [WillWait, Settling]) fun _ => rfl
  | test =>
    subst hstep
    split_ifs at hbusy ⊢ with hrun
    · -- it is going to wait, as it was before
      refine ⟨fun _ => hrun, fun _ hrequest => h.about (.inr ⟨hbg, hrun⟩) hrequest, ?_⟩
      exact fun hjoin => absurd (hrun.symm.trans hjoin) (by decide)
    · exact hbusy rfl rfl
  | toWait =>
    subst hstep
    have hrun : s.shutdownState = .run := h.run (.inl hbg)
    refine ⟨fun _ => hrun, fun _ hrequest => h.about (.inl (.inl hbg)) hrequest, ?_⟩
    exact fun hjoin => absurd hjoin hjoining
  | waiting signalled =>
    obtain ⟨-, rfl⟩ := ite_some_none_eq_some.mp hstep
    exact hbusy rfl rfl
  | woken | restore =>
    subst hstep
    split_ifs at hbusy ⊢
    · exact hbusy rfl rfl
    · exact hbusy rfl rfl
  | dispatch =>
    subst hstep
    split at hbusy
    · exact hbusy rfl rfl
    · exact hbusy rfl rfl
    all_goals exact h.of_eq rfl rfl rfl fun hsignal => hsignal
  | scanning | leave =>
    subst hstep
    exact hbusy rfl rfl
  | connecting =>
    subst hstep
    obtain ⟨-, hshutdown, hnext⟩ := s.connected_spec answer
    rw [hbg] at hnext
    rcases hnext with ⟨save, hnext⟩ | ⟨confirm, hnext⟩ | hnext
    all_goals
      rw [hnext] at hbusy
      exact hbusy hshutdown rfl
  | askStop save =>
    subst hstep
    exact .of_not_willWait (by simp [WillWait, Settling]) (by simp)
  | finish confirm =>
    subst hstep
    split_ifs at hbusy ⊢ with hstate
    · exact .of_test rfl (show s.bgState.request = false from hstate ▸ rfl) hjoining
    · exact hbusy rfl rfl
  | set confirm =>
    subst hstep
    cases confirm <;> exact .of_test rfl rfl hjoining

/-- What the callback does but for the change of the state and the signal. -/
theorem uloopStep_spec (hstep : s.uloopStep = some s') :
    s'.shutdownState = s.shutdownState ∧
      (s.uloop = .signal ∧ s' = s.signal.goUloop .unlock ∨
        s'.bg = s.bg ∧ s.uloop ≠ .signal ∧
          (s'.bgState = s.bgState ∨ s'.bgState = .idle ∨ s'.uloop = .signal)) := by
  unfold uloopStep at hstep
  cases hpc : s.uloop with simp only [hpc, Option.some.injEq] at hstep
  | idle | ended => cases hstep
  | signal =>
    subst hstep
    refine ⟨?_, .inl ⟨rfl, rfl⟩⟩
    unfold signal
    split <;> rfl
  | setIdle =>
    subst hstep
    exact ⟨rfl, .inr ⟨rfl, by decide, .inr (.inl rfl)⟩⟩
  | set next =>
    subst hstep
    exact ⟨rfl, .inr ⟨rfl, by simp, .inr (.inr rfl)⟩⟩
  | checkConfirm =>
    subst hstep
    unfold confirmTick
    repeat' split
    all_goals exact ⟨rfl, .inr ⟨rfl, by decide, .inl rfl⟩⟩
  | idleSeen =>
    subst hstep
    unfold choose
    repeat' split
    all_goals exact ⟨rfl, .inr ⟨rfl, by decide, .inl rfl⟩⟩
  | checkJoining =>
    subst hstep
    split <;> exact ⟨rfl, .inr ⟨rfl, by decide, .inl rfl⟩⟩
  | checkStopping | stoppingSeen | checkIdle | unlock =>
    subst hstep
    exact ⟨rfl, .inr ⟨rfl, by decide, .inl rfl⟩⟩

theorem awake_signal (h : s.Awake) (htimely : s.WillWait → s.bg = .waiting false) :
    (s.signal.goUloop .unlock).Awake := by
  unfold signal
  split
  · exact .of_not_willWait (by simp [WillWait, Settling, goBg, goUloop])
      fun hjoining => absurd hjoining (h.not_joining (by simp [*]))
  · rename_i hnot
    exact .of_not_willWait (fun hwait => hnot false (htimely hwait)) h.ended

theorem awake_uloopStep (h : s.Awake) (htimely : s.timely .uloop)
    (hstep : s.uloopStep = some s') : s'.Awake := by
  obtain ⟨hshutdown, ⟨hsignal, rfl⟩ | ⟨hbg, hsignal, hstate⟩⟩ := uloopStep_spec hstep
  · exact awake_signal h (htimely hsignal)
  · refine ⟨?_, ?_, ?_⟩
    · simpa only [Settling, hbg, hshutdown] using h.run
    · intro hwait hrequest
      simp only [WillWait, Settling, hbg, hshutdown] at hwait
      rcases hstate with hstate | hstate | hstate
      · exact absurd (h.about hwait (hstate ▸ hrequest)) hsignal
      · rw [hstate] at hrequest
        cases hrequest
      · exact hstate
    · simpa only [hbg, hshutdown] using h.ended

/-- The shutdown is asked for when the background thread does not wait. -/
theorem Awake.of_stopping (hbg : s'.bg = s.bg) (hshutdown : s'.shutdownState = .stopping)
    (hnot : ¬ s.Settling) : s'.Awake := by
  refine .of_not_willWait ?_ fun hjoining => absurd (hshutdown.symm.trans hjoining) (by decide)
  rintro (hsettling | ⟨-, hrun⟩)
  · exact hnot (by simpa only [Settling, hbg] using hsettling)
  · exact absurd (hshutdown.symm.trans hrun) (by decide)

theorem whenIdle_eq_some {t : Daemon} (h : s.whenIdle t = some s') : s.uloop = .idle ∧ s' = t := by
  obtain ⟨hidle, heq⟩ := ite_none_right_eq_some.mp h
  exact ⟨hidle, (Option.some.inj heq).symm⟩

theorem awake_initial : initial.Awake :=
  .of_not_willWait (by decide) (by decide)

theorem awake_step (h : s.Awake) {e : DaemonEvent} (htimely : s.timely e)
    (hstep : s.step e = some s') : s'.Awake := by
  obtain ⟨-, hstep⟩ := ite_none_left_eq_some.mp hstep
  cases e with
  | interval =>
    obtain ⟨hidle, rfl⟩ := whenIdle_eq_some hstep
    exact h.of_eq rfl rfl rfl fun hsignal => absurd (hidle.symm.trans hsignal) (by decide)
  | uloop => exact awake_uloopStep h htimely hstep
  | shutdown save =>
    obtain ⟨-, rfl⟩ := whenIdle_eq_some hstep
    exact .of_stopping rfl rfl htimely.1
  | status =>
    obtain ⟨-, rfl⟩ := whenIdle_eq_some hstep
    exact h.of_eq rfl rfl rfl fun hsignal => hsignal
  | connect args malloc =>
    obtain ⟨-, rfl⟩ := whenIdle_eq_some hstep
    unfold wsdConnect
    split
    · exact h.of_eq rfl rfl rfl fun hsignal => hsignal
    · split
      · exact h.of_eq rfl rfl rfl fun hsignal => hsignal
      · split
        · rename_i hmalloc
          rcases htimely with htimely | htimely
          · exact absurd (hmalloc.symm.trans htimely) (by decide)
          · exact .of_stopping rfl rfl htimely.1
        · exact h.of_eq rfl rfl rfl fun hsignal => hsignal
  | bg answer => exact awake_bgStep h hstep

theorem joining_step (h : s.Awake) {e : DaemonEvent} (htimely : s.timely e)
    (hstep : s.step e = some s') (hjoining : s.shutdownState = .joining) :
    s'.shutdownState = .joining := by
  obtain ⟨-, hstep⟩ := ite_none_left_eq_some.mp hstep
  cases e with try obtain ⟨-, rfl⟩ := whenIdle_eq_some hstep
  | interval | status =>
    exact hjoining
  | uloop => exact (uloopStep_spec hstep).1.trans hjoining
  | shutdown save => exact absurd hjoining htimely.2
  | connect args malloc =>
    rcases htimely with rfl | htimely
    · unfold wsdConnect
      repeat' split
      · exact hjoining
      · exact hjoining
      · rename_i hmalloc
        cases hmalloc
      · exact hjoining
    · exact absurd hjoining htimely.2
  | bg answer =>
    simp only [bgStep, h.ended hjoining] at hstep
    cases hstep

end Daemon

theorem awake_of_reachable {s : Daemon} (h : daemon.ReachableUnder Daemon.timely s) : s.Awake :=
  h.invariant Daemon.awake_initial fun _ _ _ hs htimely hstep => Daemon.awake_step hs htimely hstep

/-- If everything happens at the right time, then the background thread never waits for a
request without having been signalled, unless the uloop thread is just about to signal it; and
the end of the background thread is not undone. -/
theorem requests_not_lost {s : Daemon} (h : daemon.ReachableUnder Daemon.timely s) :
    (s.uloop ≠ .signal → s.NoLostRequest) ∧
      ∀ e s', s.timely e → daemon.step s e = some s' → s.shutdownState = .joining →
        s'.shutdownState = .joining :=
  ⟨Daemon.noLostRequest_of_awake (awake_of_reachable h),
    fun _ _ htimely hstep => Daemon.joining_step (awake_of_reachable h) htimely hstep⟩

/-- A step of the background thread in which nothing fails. -/
def bgOk : DaemonEvent := .bg ⟨0, 0⟩

/-- The background thread waits, and the callback asks it for a scan. -/
theorem requests_not_lost_scan :
    ∃ s, daemon.ReachableUnder Daemon.timely s ∧ s.bg = .waiting true ∧ s.bgState = .scan ∧
      s.uloop = .idle ∧ s.NoLostRequest := by
  obtain ⟨s, -, hs, hbg, hstate, hidle⟩ := daemon.exists_reachableUnder Daemon.timely
    [bgOk, bgOk, bgOk, .interval, .uloop, .uloop, .uloop, .uloop, .uloop, .uloop, .uloop, .uloop]
    (fun s => s.bg = .waiting true ∧ s.bgState = .scan ∧ s.uloop = .idle)
    (by decide +kernel) (by decide +kernel)
  exact ⟨s, hs, hbg, hstate, hidle, (requests_not_lost hs).1 (by rw [hidle]; decide)⟩

namespace Daemon

/-- The shutdown has been asked for, the background thread waits, and the state is such that
the callback does not signal. -/
structure Stuck (s : Daemon) : Prop where
  bg : s.bg = .waiting false
  bgState : s.bgState = .stopping
  shutdownState : s.shutdownState = .stopping
  uloop : s.uloop = .idle ∨ s.uloop = .checkStopping ∨ s.uloop = .stoppingSeen

theorem Stuck.of_eq {s s' : Daemon} (h : s.Stuck) (hbg : s'.bg = s.bg)
    (hstate : s'.bgState = s.bgState) (hshutdown : s'.shutdownState = .stopping)
    (huloop : s'.uloop = .idle ∨ s'.uloop = .checkStopping ∨ s'.uloop = .stoppingSeen) :
    s'.Stuck :=
  ⟨hbg.trans h.bg, hstate.trans h.bgState, hshutdown, huloop⟩

theorem stuck_step {s s' : Daemon} {e : DaemonEvent} (h : s.Stuck) (hstep : s.step e = some s') :
    s'.Stuck := by
  obtain ⟨-, hstep⟩ := ite_none_left_eq_some.mp hstep
  cases e with
  | interval =>
    obtain ⟨-, rfl⟩ := whenIdle_eq_some hstep
    exact h.of_eq rfl rfl h.shutdownState (.inr (.inl rfl))
  | uloop =>
    rcases h.uloop with hpc | hpc | hpc
    · simp only [uloopStep, hpc] at hstep
      cases hstep
    · simp only [uloopStep, hpc, h.shutdownState, if_true, Option.some.injEq] at hstep
      subst hstep
      exact h.of_eq rfl rfl h.shutdownState (.inr (.inr rfl))
    · simp only [uloopStep, hpc, h.bgState, ne_eq, not_true_eq_false, if_false,
        Option.some.injEq] at hstep
      subst hstep
      exact h.of_eq rfl rfl h.shutdownState (.inl rfl)
  | shutdown save =>
    obtain ⟨hidle, rfl⟩ := whenIdle_eq_some hstep
    exact h.of_eq rfl rfl rfl (.inl hidle)
  | status =>
    obtain ⟨hidle, rfl⟩ := whenIdle_eq_some hstep
    exact h.of_eq rfl rfl h.shutdownState (.inl hidle)
  | connect args malloc =>
    obtain ⟨hidle, rfl⟩ := whenIdle_eq_some hstep
    unfold wsdConnect
    repeat' split
    · exact h.of_eq rfl rfl h.shutdownState (.inl hidle)
    · exact h.of_eq rfl rfl h.shutdownState (.inl hidle)
    · exact h.of_eq rfl rfl rfl (.inl hidle)
    · exact h.of_eq rfl rfl h.shutdownState (.inl hidle)
  | bg answer =>
    simp only [bgStep, h.bg] at hstep
    obtain ⟨⟨hsignalled, -⟩, -⟩ := ite_none_right_eq_some.mp hstep
    cases hsignalled

/-- Nothing gets the daemon out of this. -/
theorem stuck_forever {s s' : Daemon} (h : s.Stuck) {es : List DaemonEvent}
    (hrun : daemon.runFrom s es = some s') : s'.Stuck :=
  System.runFrom_invariant hrun h fun _ _ _ _ hs hstep => stuck_step hs hstep

end Daemon

/-- A scan is asked for before the background thread waits, and it is not signalled any more.
The shutdown is asked for at such a time, and the background thread waits forever. And the
shutdown is asked for after the end of the background thread. -/
theorem requests_lost :
    (∃ s, daemon.Reachable s ∧ s.uloop = .idle ∧ s.bg = .waiting false ∧ s.bgState = .scan ∧
      ¬ s.NoLostRequest) ∧
    (∃ s, daemon.Reachable s ∧ s.uloop = .idle ∧ s.shutdownState = .stopping ∧
      ¬ s.NoLostRequest ∧
      ∀ es s', daemon.runFrom s es = some s' → s'.bg = .waiting false) ∧
    ∃ s s', daemon.Reachable s ∧ s.shutdownState = .joining ∧
      daemon.step s (.shutdown none) = some s' ∧ s'.shutdownState = .stopping := by
  refine ⟨?_, ?_, ?_⟩
  · obtain ⟨s, hs, hidle, hbg, hstate⟩ := daemon.exists_reachable
      [bgOk, .interval, .uloop, .uloop, .uloop, .uloop, .uloop, .uloop, .uloop, .uloop, bgOk, bgOk]
      (fun s => s.uloop = .idle ∧ s.bg = .waiting false ∧ s.bgState = .scan) (by decide +kernel)
    exact ⟨s, hs, hidle, hbg, hstate, fun h => absurd (h false hbg (.inl hstate)) (by decide)⟩
  · obtain ⟨s, hs, hbg, hstate, hshutdown, hidle⟩ := daemon.exists_reachable
      [bgOk, bgOk, .shutdown none, .interval, .uloop, .uloop, .uloop, .uloop, .uloop, bgOk]
      (fun s => s.bg = .waiting false ∧ s.bgState = .stopping ∧ s.shutdownState = .stopping ∧
        s.uloop = .idle) (by decide +kernel)
    have hstuck : s.Stuck := ⟨hbg, hstate, hshutdown, .inl hidle⟩
    have hrequested : s.Requested := .inr (.inr (by rw [hshutdown]; decide))
    exact ⟨s, hs, hidle, hshutdown, fun h => absurd (h false hbg hrequested) (by decide),
      fun es s' hrun => (Daemon.stuck_forever hstuck hrun).bg⟩
  · obtain ⟨s, hs, hjoining, hidle, haborted⟩ := daemon.exists_reachable [.bg ⟨1, 0⟩, .bg ⟨1, 0⟩]
      (fun s => s.shutdownState = .joining ∧ s.uloop = .idle ∧ s.aborted = false)
      (by decide +kernel)
    refine ⟨s, s.wsdShutdown none, hs, hjoining, ?_, rfl⟩
    simp [daemon, Daemon.step, haborted, Daemon.whenIdle, hidle]

end BeepMusic.Wifisetup
