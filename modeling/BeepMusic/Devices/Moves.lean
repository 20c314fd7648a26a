import BeepMusic.Devices.Device

/-!
What an event can do to a device, apart from its connections and requests. Each operation is
made of a few moves, so that an invariant needs to be checked for these only.
-/

namespace BeepMusic.Devices

open Option

namespace Device

structure Outline where
  state : DeviceState
  interfaces : List ℕ
  activeInterface : Option ℕ
  callbacks : List DeviceCallback
  declared : List Declaration
  exited : Bool

def outline (s : Device) : Outline :=
  ⟨s.state, s.interfaces, s.activeInterface, s.callbacks, s.declared, s.exited⟩

inductive Move (o : Outline) : Outline → Prop
  | add (i : ℕ) : Move o { o with interfaces := o.interfaces ++ [i] }
  | connect {i : ℕ} (hactive : o.activeInterface = none) (hfirst : o.interfaces.head? = some i) :
      Move o { o with state := .connecting, activeInterface := some i }
  | confirm (hstate : o.state = .connecting) : Move o { o with state := .confirming }
  | doubt (hstate : o.state = .ready) : Move o { o with state := .confirmingTransient }
  | fail (hstate : o.state = .ready) :
      Move o { o with state := .confirming, callbacks := o.callbacks ++ [.onDead] }
  | giveUp {i : ℕ} {callbacks : List DeviceCallback} (interfaces : List ℕ)
      (hfirst : o.interfaces.head? = some i)
      (hcallbacks : o.state = .confirmingTransient ∧ callbacks = o.callbacks ++ [.onDead] ∨
        (o.state = .connecting ∨ o.state = .confirming) ∧ callbacks = o.callbacks) :
      Move o { o with
        state := .dead, callbacks := callbacks, interfaces := interfaces, activeInterface := none }
  | exit {i : ℕ} (callbacks : List DeviceCallback) (hactive : o.activeInterface = some i)
      (hfirst : o.interfaces.head? ≠ some i) :
      Move o { o with state := .dead, callbacks := callbacks, exited := true }

section

variable {s : Device} {I : Outline → Prop} (hmove : ∀ {o o'}, Move o o' → I o → I o')
  (h : I s.outline)
include hmove h

theorem outline_connectNextInterface : I s.connectNextInterface.outline := by
  rw [connectNextInterface]
  split
  · rename_i hactive hinterfaces
    exact hmove (.connect hactive (congrArg List.head? hinterfaces)) h
  · exact h

theorem outline_addInterface (ip : String) (port : ℕ) (serviceInfo : String) :
    I (s.addInterface ip port serviceInfo).outline := by
  rw [addInterface]
  split
  · exact outline_connectNextInterface hmove (hmove (.add s.made) h)
  · exact outline_connectNextInterface hmove h

omit hmove in
theorem outline_doConfirm : I s.doConfirm.outline := by
  rw [doConfirm]
  split
  · exact h
  · dsimp only
    split <;> exact h

theorem outline_onInterfaceError (interface : Option ℕ) :
    I (s.onInterfaceError interface).outline := by
  rw [onInterfaceError]
  split_ifs with hother
  · exact h
  obtain ⟨hsome, hactive⟩ := not_or.mp hother
  obtain ⟨i, rfl⟩ := ne_none_iff_exists'.mp hsome
  replace hactive := (not_ne_iff.mp hactive).symm
  have hdead (callbacks : List DeviceCallback)
      (hcallbacks : s.state = .confirmingTransient ∧ callbacks = s.callbacks ++ [.onDead] ∨
        (s.state = .connecting ∨ s.state = .confirming) ∧ callbacks = s.callbacks) :
      I (onInterfaceDead { s with state := .dead, callbacks := callbacks }).outline := by
    rw [onInterfaceDead]
    split
    case h_1 hnone => cases hnone.symm.trans hactive
    case h_2 j hj =>
      dsimp only
      split
      case isTrue hfirst => exact hmove (.exit callbacks hj hfirst) h
      case isFalse hfirst => exact hmove (.giveUp _ (not_ne_iff.mp hfirst) hcallbacks) h
  split
  case h_1 hstate => exact hdead s.callbacks (.inr ⟨.inl hstate, rfl⟩)
  case h_2 hstate => exact outline_doConfirm (hmove (.fail hstate) h)
  case h_3 hstate => exact hdead s.callbacks (.inr ⟨.inr hstate, rfl⟩)
  case h_4 hstate => exact hdead _ (.inl ⟨hstate, rfl⟩)
  case h_5 | h_6 => exact h

theorem outline_notifyDiscoveryRemoval (serviceInfo : String) :
    I (s.notifyDiscoveryRemoval serviceInfo).outline := by
  rw [notifyDiscoveryRemoval]
  split
  · exact h
  · dsimp only
    split_ifs with hactive hstate
    · exact h
    · exact outline_doConfirm (hmove (.doubt hstate) h)
    · exact h

theorem outline_notifyDeviceError (id ip : String) (port : ℕ) :
    I (s.notifyDeviceError id ip port).outline := by
  rw [notifyDeviceError]
  split_ifs
  · exact h
  · split
    · exact outline_onInterfaceError hmove h none
    · split_ifs
      · exact outline_onInterfaceError hmove h _
      · exact h

theorem outline_connectDone (i seq : ℕ) : I (s.connectDone i seq).outline := by
  rw [connectDone]
  split_ifs
  · rw [onInterfaceConnected]
    split_ifs with hother hstate
    · exact h
    · exact outline_doConfirm (hmove (.confirm hstate) h)
    · exact h
  · exact h

/-- An event keeps what the moves keep, unless it is the reply to a confirm, or the process is
ended in `lib/device.lua`. -/
theorem outline_step {s' : Device} {e : DeviceEvent} (hstep : s.step e = some s')
    (hconfirm : ∀ n deviceId, e ≠ .confirmDone n deviceId)
    (hexit : ∀ i, e ≠ .disconnectFailed i) : I s'.outline := by
  obtain ⟨-, hstep⟩ := ite_none_left_eq_some.mp hstep
  cases e with try cases hstep
  | addInterface ip port serviceInfo => exact outline_addInterface hmove h ip port serviceInfo
  | discoveryRemoval serviceInfo => exact outline_notifyDiscoveryRemoval hmove h serviceInfo
  | deviceError id ip port => exact outline_notifyDeviceError hmove h id ip port
  | connectDone i seq =>
    obtain ⟨-, rfl⟩ := ite_some_none_eq_some.mp hstep
    exact outline_connectDone hmove h i seq
  | connectFailed i seq =>
    obtain ⟨-, rfl⟩ := ite_some_none_eq_some.mp hstep
    exact outline_onInterfaceError hmove (by exact h) (some i)
  | disconnectDone i =>
    obtain ⟨-, heq⟩ := ite_none_left_eq_some.mp hstep
    cases heq
    exact h
  | disconnectFailed i => exact absurd rfl (hexit i)
  | confirmDone n deviceId => exact absurd rfl (hconfirm n deviceId)
  | confirmFailed n =>
    obtain ⟨c, -, rfl⟩ := map_eq_some_iff.mp hstep
    exact outline_onInterfaceError hmove (by exact h) _
  | callFailed i => exact outline_onInterfaceError hmove h (some i)
  | retry =>
    obtain ⟨-, heq⟩ := ite_none_left_eq_some.mp hstep
    cases heq
    rw [onRetry]
    split_ifs
    · exact outline_connectNextInterface hmove (by exact h)
    · exact h
  | tick secs => exact h

end

end Device

end BeepMusic.Devices
