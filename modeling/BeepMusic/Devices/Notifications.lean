import BeepMusic.Devices.Moves

/-!
What a `Device` promises to its owner: `on_ready` and `on_dead` alternate, and there is an
active interface, the first of the list, whenever the state is neither `INIT` nor `DEAD`.
-/

namespace BeepMusic.Devices

open Lib List

def DeviceCallback.nth (n : ℕ) : DeviceCallback := if n % 2 = 0 then .onReady else .onDead

/-- The callbacks alternate, and the first is `on_ready`. -/
def Alternate (callbacks : List DeviceCallback) : Prop :=
  callbacks = (List.range callbacks.length).map DeviceCallback.nth

theorem Alternate.append {l : List DeviceCallback} {callback : DeviceCallback} (h : Alternate l)
    (hnext : callback = .nth l.length) : Alternate (l ++ [callback]) := by
  rw [Alternate, length_append, length_singleton, range_succ, map_append, ← h,
    hnext]
  rfl

theorem Alternate.onDead {l : List DeviceCallback} (h : Alternate l) (hodd : l.length % 2 = 1) :
    Alternate (l ++ [.onDead]) ∧ (l ++ [DeviceCallback.onDead]).length % 2 ≠ 1 := by
  refine ⟨h.append (by simp [DeviceCallback.nth, hodd]), ?_⟩
  rw [length_append, length_singleton]
  omega

namespace Device

/-- The process has not been ended, and the owner has been told that the device is ready, and not
yet that it is dead, in two of the states. -/
structure Regular (o : Outline) : Prop where
  active : o.activeInterface = none ↔ o.state = .init ∨ o.state = .dead
  first : ∀ i ∈ o.activeInterface, o.interfaces.head? = some i
  alternate : Alternate o.callbacks
  told : o.callbacks.length % 2 = 1 ↔ o.state = .ready ∨ o.state = .confirmingTransient
  running : o.exited = false

theorem Regular.move {o o' : Outline} (hmove : Move o o') (h : Regular o) : Regular o' := by
  have hactive := h.active
  have htold := h.told
  cases hmove with
  | add i =>
    refine { h with first := fun j hj => ?_ }
    rw [head?_append, h.first j hj]
    rfl
  | connect hnone hfirst =>
    have hstate := hactive.mp hnone
    refine { h with active := by simp, first := by simp [hfirst], told := htold.trans ?_ }
    rcases hstate with hstate | hstate <;> simp [hstate]
  | confirm hstate | doubt hstate =>
    exact ⟨hactive.trans (by simp [hstate]), h.first, h.alternate, htold.trans (by simp [hstate]),
      h.running⟩
  | fail hstate =>
    obtain ⟨halternate, heven⟩ := h.alternate.onDead (htold.mpr (.inl hstate))
    exact ⟨hactive.trans (by simp [hstate]), h.first, halternate, by simpa using heven, h.running⟩
  | giveUp interfaces hfirst hcallbacks =>
    rcases hcallbacks with ⟨hstate, rfl⟩ | ⟨hstate, rfl⟩
    · obtain ⟨halternate, heven⟩ := h.alternate.onDead (htold.mpr (.inr hstate))
      exact ⟨by simp, by simp, halternate, by simpa using heven, h.running⟩
    · refine ⟨by simp, by simp, h.alternate, htold.trans ?_, h.running⟩
      rcases hstate with hstate | hstate <;> simp [hstate]
  | exit callbacks hsome hfirst => exact absurd (h.first _ hsome) hfirst

variable {s s' : Device}

theorem Regular.confirmed (h : Regular s.outline) (c : Confirm) (reported : String) :
    Regular (s.confirmed c reported).outline := by
  have hactive := h.active
  have htold := h.told
  rw [Device.confirmed]
  split
  case h_1 hstate =>
    have heven : s.callbacks.length % 2 = 0 := by
      simp only [outline, hstate, reduceCtorEq, or_self, iff_false] at htold
      omega
    have hready : Regular { (s.declare c reported).outline with
        callbacks := s.callbacks ++ [.onReady] } := by
      refine ⟨hactive.trans (by simp [outline, declare, hstate]), h.first,
        h.alternate.append (by simp [outline, DeviceCallback.nth, heven]), ?_, h.running⟩
      rw [length_append]
      exact iff_of_true (show (s.callbacks.length + 1) % 2 = 1 by omega) (.inl rfl)
    rw [clearStarted]
    split <;> exact hready
  case h_2 hstate =>
    exact ⟨hactive.trans (by simp [outline, declare, hstate]), h.first, h.alternate,
      htold.trans (by simp [outline, declare, hstate]), h.running⟩
  case h_3 | h_4 | h_5 | h_6 => exact h

theorem Regular.confirmHandler (h : Regular s.outline) (c : Confirm) (deviceId : Option String) :
    Regular (s.confirmHandler c deviceId).outline := by
  have herror := outline_onInterfaceError Regular.move h s.activeInterface
  rw [Device.confirmHandler.eq_def]
  split
  · exact herror
  · split_ifs
    · exact herror.confirmed c _
    · exact h.confirmed c _

/-- The state is regular, but that a failure to disconnect may have ended the process. -/
theorem Regular.step {e : DeviceEvent} (h : Regular { s.outline with exited := false })
    (hstep : s.step e = some s') :
    Regular { s'.outline with exited := false } ∧
      (s'.exited = true → ∃ i, e = .disconnectFailed i) := by
  have hs : Regular s.outline := by
    obtain ⟨hrunning, -⟩ := Option.ite_none_left_eq_some.mp hstep
    exact { h with running := Bool.eq_false_iff.mpr hrunning }
  by_cases hexit : ∃ i, e = .disconnectFailed i
  · refine ⟨?_, fun _ => hexit⟩
    obtain ⟨i, rfl⟩ := hexit
    obtain ⟨-, hstep⟩ := Option.ite_none_left_eq_some.mp hstep
    obtain ⟨-, hstep⟩ := Option.ite_none_left_eq_some.mp hstep
    exact Option.some.inj hstep ▸ h
  · have hs' : Regular s'.outline := by
      by_cases hconfirm : ∃ n deviceId, e = .confirmDone n deviceId
      · obtain ⟨n, deviceId, rfl⟩ := hconfirm
        obtain ⟨-, hstep⟩ := Option.ite_none_left_eq_some.mp hstep
        obtain ⟨c, -, rfl⟩ := Option.map_eq_some_iff.mp hstep
        exact Regular.confirmHandler (by exact hs) c deviceId
      · exact outline_step Regular.move hs hstep (fun n deviceId he => hconfirm ⟨n, deviceId, he⟩)
          fun i he => hexit ⟨i, he⟩
    refine ⟨{ hs' with running := rfl }, fun hexited => ?_⟩
    cases hs'.running.symm.trans hexited

end Device

/-- In every run the callbacks alternate, starting with `on_ready`, there is an active
interface exactly if the state is neither `INIT` nor `DEAD`, it is the first of the list, and
no event makes `_on_interface_dead` end the process. -/
theorem device_notifications {id : String} {s : Device} (h : (device id).Reachable s) :
    Alternate s.callbacks ∧
      (s.activeInterface = none ↔ s.state = .init ∨ s.state = .dead) ∧
      (∀ i ∈ s.activeInterface, s.interfaces.head? = some i) ∧
      ∀ e s', s.step e = some s' → s'.exited = true → ∃ i, e = .disconnectFailed i := by
  have hregular : Device.Regular { s.outline with exited := false } := by
    refine h.invariant (I := fun s => Device.Regular { s.outline with exited := false }) ?_
      fun s e s' hs hstep => (hs.step hstep).1
    constructor <;> simp [device, Device.initial, Device.outline, Alternate]
  exact ⟨hregular.alternate, hregular.active, hregular.first,
    fun e s' hstep => (hregular.step hstep).2⟩

/-- A device that was ready fails, is confirmed again over the same interface, and fails. -/
theorem device_notifications_twice :
    ∃ s, (device "b").Reachable s ∧ s.callbacks = [.onReady, .onDead, .onReady, .onDead] ∧
      Alternate s.callbacks := by
  obtain ⟨s, hreachable, hcallbacks⟩ := System.exists_reachable (device "b")
    [.addInterface "10.0.0.2" 80 "x", .connectDone 0 1, .confirmDone 0 (some "b"), .callFailed 0,
      .confirmDone 0 (some "b"), .callFailed 0]
    (fun s => s.callbacks = [.onReady, .onDead, .onReady, .onDead]) (by decide +kernel)
  exact ⟨s, hreachable, hcallbacks, (device_notifications hreachable).1⟩

end BeepMusic.Devices
