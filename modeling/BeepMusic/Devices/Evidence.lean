import BeepMusic.Devices.Attempts
import BeepMusic.Devices.Moves

/-!
What a device is declared ready on. The handler of a confirm reply does not look at the connection
that the request was made over, so a reply may come for a connection that has been given up. As
long as a request is made only when the one before has been answered, and no interface hears of a
failed connection while it is connected, every reply that counts is for the current connection
and from the device.
-/

namespace BeepMusic.Devices

open Lib List Option

namespace Device

variable {s s' : Device}

/-- What does not depend on the state. -/
structure Grounded (s : Device) : Prop where
  numbered : ∀ i, (s.interface i).conn.Numbered
  made : ∀ i ∈ s.interfaces, i < s.made
  active : ∀ i, s.activeInterface = some i → i ∈ s.interfaces

/-- The requests that are out while a reply would count are for the current connection. -/
structure Fresh (s : Device) : Prop extends s.Grounded where
  confirming : s.state = .confirming ∨ s.state = .confirmingTransient →
    ∀ c ∈ s.confirms, s.Current c
  ready : s.state = .ready → s.confirms = []

/-- The state is one in which no reply counts. -/
def Idle (s : Device) : Prop := s.state = .init ∨ s.state = .connecting ∨ s.state = .dead

theorem Grounded.fresh_of_idle (h : s.Grounded) (hidle : s.Idle) : s.Fresh := by
  refine ⟨h, fun hstate => ?_, fun hstate => ?_⟩
  · rcases hidle with hidle | hidle | hidle <;> rw [hidle] at hstate <;>
      rcases hstate with hstate | hstate <;> cases hstate
  · rcases hidle with hidle | hidle | hidle <;> cases hidle.symm.trans hstate

/-! ### Interfaces -/

theorem interface_setInterface (s : Device) (i j : ℕ) (x : DeviceInterface) :
    (s.setInterface i x).interface j = if j = i then x else s.interface j := rfl

variable {x : DeviceInterface} {c : Confirm} {i : ℕ}

theorem Grounded.setInterface (h : s.Grounded) (i : ℕ) (hx : x.conn.Numbered) :
    (s.setInterface i x).Grounded := by
  refine ⟨fun j => ?_, h.made, h.active⟩
  rw [interface_setInterface]
  split
  · exact hx
  · exact h.numbered j

/-- A change of an interface that is not the connected active one, or that leaves its connection
alone. -/
theorem Current.setInterface (h : s.Current c)
    (hx : c.interface = i → x.conn.state = .connected ∧
      x.conn.connectSeq = (s.interface i).conn.connectSeq) : (s.setInterface i x).Current c := by
  obtain ⟨hactive, hstate, hseq⟩ := h
  refine ⟨hactive, ?_⟩
  rw [interface_setInterface]
  split
  · rename_i hi
    exact ⟨(hx hi).1, (hx hi).2.trans (hi ▸ hseq)⟩
  · exact ⟨hstate, hseq⟩

theorem Fresh.setInterface (h : s.Fresh) (i : ℕ) (hnumbered : x.conn.Numbered)
    (hx : (s.interface i).conn.state = .connected → x.conn.state = .connected ∧
      x.conn.connectSeq = (s.interface i).conn.connectSeq) : (s.setInterface i x).Fresh := by
  refine ⟨h.toGrounded.setInterface i hnumbered, fun hstate c hc => ?_, h.ready⟩
  have hcurrent := h.confirming hstate c hc
  refine hcurrent.setInterface fun hi => hx ?_
  rw [← hi]
  exact hcurrent.2.1

theorem Fresh.setInterface_conn (h : s.Fresh) (i : ℕ) (hconn : x.conn = (s.interface i).conn) :
    (s.setInterface i x).Fresh :=
  h.setInterface i (hconn ▸ h.numbered i) fun hstate => by rw [hconn]; exact ⟨hstate, rfl⟩

theorem Fresh.connectNextInterface (h : s.Fresh) : s.connectNextInterface.Fresh := by
  unfold Device.connectNextInterface
  split
  · rename_i i rest hactive hinterfaces
    have hmem : i ∈ s.interfaces := hinterfaces ▸ .head rest
    have hactivated : Grounded { s with activeInterface := some i, state := .connecting } :=
      ⟨h.numbered, h.made, fun j hj => Option.some.inj hj ▸ hmem⟩
    refine Grounded.fresh_of_idle (hactivated.setInterface i ?_) (.inr (.inl rfl))
    exact (h.numbered i).connect _
  · exact h

theorem Fresh.addInterface (h : s.Fresh) (ip : String) (port : ℕ) (serviceInfo : String) :
    (s.addInterface ip port serviceInfo).Fresh := by
  unfold Device.addInterface
  split
  · refine Fresh.connectNextInterface ?_
    have hnumbered : (Interface.initial false : Interface Unit).Numbered :=
      Interface.numbered_of_reachable (.init : (Devices.interface Unit false).Reachable _)
    have hmade : ∀ i ∈ s.interfaces ++ [s.made], i < s.made + 1 := by
      intro i hi
      rcases mem_append.mp hi with hi | hi
      · exact Nat.lt_succ_of_lt (h.made i hi)
      · exact mem_singleton.mp hi ▸ Nat.lt_succ_self _
    have hgrounded : Grounded { s with
        made := s.made + 1, interfaces := s.interfaces ++ [s.made] } :=
      ⟨h.numbered, hmade, fun i hi => mem_append_left _ (h.active i hi)⟩
    refine ⟨hgrounded.setInterface s.made hnumbered, fun hstate c hc => ?_, h.ready⟩
    -- the new interface is not the active one
    have hcurrent := h.confirming hstate c hc
    have hlt := h.made _ (h.active _ hcurrent.1)
    exact Current.setInterface (s := { s with
      made := s.made + 1, interfaces := s.interfaces ++ [s.made] }) hcurrent
      fun heq => absurd heq (Nat.ne_of_lt hlt)
  · refine Fresh.connectNextInterface (h.setInterface_conn _ ?_)
    rfl

/-! ### Errors and confirm requests -/

theorem Grounded.doConfirm (h : s.Grounded) : s.doConfirm.Grounded := by
  unfold Device.doConfirm
  split
  · exact h
  · dsimp only
    split
    · exact { h with }
    · exact h

/-- A request that is the only one is for the current connection. -/
theorem doConfirm_current (hlen : s.doConfirm.confirms.length ≤ 1)
    (h : s.confirms = [] ∨
      ∃ i, s.activeInterface = some i ∧ (s.interface i).conn.state = .connected) :
    ∀ c ∈ s.doConfirm.confirms, s.doConfirm.Current c := by
  unfold Device.doConfirm at hlen ⊢
  cases hactive : s.activeInterface with
  | none =>
    rcases h with hnil | ⟨i, hi, -⟩
    · simp [hnil]
    · cases hactive.symm.trans hi
  | some i =>
    simp only [hactive] at hlen ⊢
    split
    · rename_i hconnected
      rw [if_pos hconnected] at hlen
      have hnil : s.confirms = [] := by
        simp only [length_append, length_singleton] at hlen
        exact length_eq_zero_iff.mp (by omega)
      intro c hc
      obtain rfl : c = ⟨i, (s.interface i).conn.connectSeq⟩ := by
        simpa [hnil] using hc
      exact ⟨rfl, hconnected, rfl⟩
    · rename_i hconnected
      rcases h with hnil | ⟨j, hj, hstate⟩
      · simp [hnil]
      · obtain rfl := Option.some.inj (hactive.symm.trans hj)
        exact absurd hstate hconnected

theorem doConfirm_state (s : Device) : s.doConfirm.state = s.state := by
  unfold Device.doConfirm
  split
  · rfl
  · dsimp only
    split <;> rfl

/-- The device turns to confirming while no request is out. -/
theorem Grounded.doConfirm_fresh (h : s.Grounded) (hstate : s.state ≠ .ready)
    (hlen : s.doConfirm.confirms.length ≤ 1)
    (hconfirms : s.confirms = [] ∨
      ∃ i, s.activeInterface = some i ∧ (s.interface i).conn.state = .connected) :
    s.doConfirm.Fresh :=
  ⟨h.doConfirm, fun _ => doConfirm_current hlen hconfirms,
    fun hready => absurd ((doConfirm_state s).symm.trans hready) hstate⟩

theorem length_doConfirm_le (h : s.confirms = []) : s.doConfirm.confirms.length ≤ 1 := by
  unfold Device.doConfirm
  split
  · simp [h]
  · dsimp only
    split <;> simp [h]

theorem Grounded.onInterfaceDead (h : s.Grounded) : s.onInterfaceDead.Grounded := by
  unfold Device.onInterfaceDead
  split
  · exact h
  · rename_i i hactive
    have hconn : (s.setConn i ((s.interface i).conn.disconnect none)).Grounded :=
      h.setInterface i ((h.numbered i).disconnect none)
    dsimp only
    split
    · exact { hconn with }
    · refine ⟨hconn.numbered, fun j hj => ?_, fun j hj => ?_⟩
      · rcases mem_append.mp hj with hj | hj
        · exact hconn.made j (mem_of_mem_tail hj)
        · split at hj
          · cases hj
          · exact mem_singleton.mp hj ▸ h.made i (h.active i hactive)
      · cases hj

theorem onInterfaceDead_state (s : Device) : s.onInterfaceDead.state = s.state := by
  unfold Device.onInterfaceDead
  split
  · rfl
  · dsimp only
    split <;> rfl

theorem Grounded.giveUp (h : s.Grounded) (hstate : s.state = .dead) : s.onInterfaceDead.Fresh :=
  h.onInterfaceDead.fresh_of_idle (.inr (.inr ((onInterfaceDead_state s).trans hstate)))

theorem Fresh.onInterfaceError (h : s.Fresh) (interface : Option ℕ) :
    (s.onInterfaceError interface).Fresh := by
  have hsame : ∀ state callbacks,
      Grounded { s with state := state, callbacks := callbacks } :=
    fun _ _ => { h with }
  unfold Device.onInterfaceError
  split
  · exact h
  · cases hstate : s.state with
    | connecting | confirming => exact (hsame .dead s.callbacks).giveUp rfl
    | ready =>
      have hnil := h.ready hstate
      exact (hsame .confirming _).doConfirm_fresh (by simp) (length_doConfirm_le hnil) (.inl hnil)
    | confirmingTransient => exact (hsame .dead _).giveUp rfl
    | init => exact h
    | dead => exact h

/-- After an error no reply counts, unless the device was ready. -/
theorem onInterfaceError_idle (hstate : s.state ≠ .ready) :
    (s.onInterfaceError s.activeInterface).Idle ∨
      (s.onInterfaceError s.activeInterface = s ∧ s.activeInterface = none) := by
  unfold Device.onInterfaceError
  split
  · rename_i hnone
    refine .inr ⟨rfl, hnone.resolve_right (not_not_intro rfl)⟩
  · refine .inl ?_
    cases hcase : s.state with
    | connecting | confirming | confirmingTransient => exact .inr (.inr (onInterfaceDead_state _))
    | ready => exact absurd hcase hstate
    | init => exact .inl hcase
    | dead => exact .inr (.inr hcase)

/-! ### Steps -/

theorem Fresh.exit (h : s.Fresh) : s.exit.Fresh :=
  ⟨{ h with }, h.confirming, h.ready⟩

theorem Fresh.clearConfirms (h : s.Fresh) : Fresh { s with confirms := [] } :=
  ⟨{ h with }, fun _ => by simp, fun _ => rfl⟩

theorem Fresh.notifyDiscoveryRemoval (h : s.Fresh) (serviceInfo : String) :
    (s.notifyDiscoveryRemoval serviceInfo).Fresh := by
  unfold Device.notifyDiscoveryRemoval
  split
  · exact h
  · rename_i i _
    have hremoval : (s.setInterface i ((s.interface i).setServiceRemoval true)).Fresh :=
      h.setInterface_conn i rfl
    dsimp only
    split
    · exact hremoval
    · split
      · rename_i hready
        have hnil : s.confirms = [] := hremoval.ready hready
        have hgrounded := hremoval.toGrounded
        exact Grounded.doConfirm_fresh
          { hgrounded with } (by simp [setState])
          (length_doConfirm_le hnil) (.inl hnil)
      · exact hremoval

theorem Fresh.notifyDeviceError (h : s.Fresh) (id ip : String) (port : ℕ) :
    (s.notifyDeviceError id ip port).Fresh := by
  unfold Device.notifyDeviceError
  split
  · exact h
  · split
    · exact h.onInterfaceError none
    · split
      · exact h.onInterfaceError _
      · exact h

theorem onConnected_of_connected {x : Interface Unit} (h : x.state = .connected) (seq : ℕ) :
    x.onConnected seq = x :=
  if_neg fun hconnects => by cases h.symm.trans hconnects.1

theorem Fresh.connectDone (h : s.Fresh) (i seq : ℕ)
    (hlen : (s.connectDone i seq).confirms.length ≤ 1) : (s.connectDone i seq).Fresh := by
  unfold Device.connectDone at hlen ⊢
  dsimp only at hlen ⊢
  have hnumbered := (h.numbered i).onConnected seq
  have hset : (s.setConn i (((s.interface i).conn.answered seq).onConnected seq)).Fresh := by
    refine h.setInterface i hnumbered fun hstate => ?_
    have heq := onConnected_of_connected
      (x := (s.interface i).conn.answered seq) hstate seq
    have hseq := congrArg Interface.connectSeq heq
    exact ⟨(congrArg Interface.state heq).trans hstate, hseq⟩
  split
  · rename_i hdue
    rw [if_pos hdue] at hlen
    unfold Device.onInterfaceConnected at hlen ⊢
    split
    · exact hset
    · rename_i hactive
      split
      · rename_i hstate
        rw [if_neg hactive, if_pos hstate] at hlen
        have hgrounded := hset.toGrounded
        refine Grounded.doConfirm_fresh
          { hgrounded with } (by simp [setState]) hlen
          (.inr ⟨i, (not_not.mp hactive).symm, ?_⟩)
        change ((s.setInterface i _).interface i).conn.state = _
        rw [interface_setInterface, if_pos rfl]
        change (((s.interface i).conn.answered seq).onConnected seq).state = _
        rw [Interface.onConnected, if_pos hdue.1]
      · exact hset
  · exact hset

theorem disconnect_not_connected {conn : Interface Unit} (h : conn.state ≠ .connected) :
    (conn.disconnect none).state ≠ .connected := by
  unfold Interface.disconnect
  split
  · exact h
  · split <;> simp_all

theorem onInterfaceDead_not_connected (h : (s.interface i).conn.state ≠ .connected) :
    (s.onInterfaceDead.interface i).conn.state ≠ .connected := by
  have hset : ∀ j, ((s.setConn j ((s.interface j).conn.disconnect none)).interface i).conn.state ≠
      .connected := by
    intro j
    change ((s.setInterface j _).interface i).conn.state ≠ _
    rw [interface_setInterface]
    split
    · rename_i hj
      exact disconnect_not_connected (hj ▸ h)
    · exact h
  unfold Device.onInterfaceDead
  split
  · exact h
  · dsimp only
    split
    · exact hset _
    · exact hset _

theorem interface_doConfirm (s : Device) : s.doConfirm.interface = s.interface := by
  unfold Device.doConfirm
  split
  · rfl
  · dsimp only
    split <;> rfl

theorem onInterfaceError_not_connected (h : (s.interface i).conn.state ≠ .connected)
    (interface : Option ℕ) :
    ((s.onInterfaceError interface).interface i).conn.state ≠ .connected := by
  unfold Device.onInterfaceError
  split
  · exact h
  · cases s.state with
    | connecting | confirming | confirmingTransient => exact onInterfaceDead_not_connected h
    | ready => rw [interface_doConfirm]; exact h
    | init => exact h
    | dead => exact h

theorem Fresh.connectFailed (h : s.Fresh) (i seq : ℕ)
    (hstate : (s.interface i).conn.state ≠ .connected) : (s.connectFailed i seq).Fresh := by
  have hanswered : (s.setConn i ((s.interface i).conn.answered seq)).Fresh :=
    h.setInterface i ((h.numbered i).answered seq) fun hconnected => ⟨hconnected, rfl⟩
  have hnot : ((s.setConn i ((s.interface i).conn.answered seq)).interface i).conn.state ≠
      .connected := by
    change ((s.setInterface i _).interface i).conn.state ≠ _
    rw [interface_setInterface, if_pos rfl]
    exact hstate
  have herror := hanswered.onInterfaceError (some i)
  exact herror.setInterface i ((herror.numbered i).disconnect none) fun hconnected =>
    absurd hconnected (onInterfaceError_not_connected hnot (some i))

theorem Fresh.disconnectDone (h : s.Fresh) (i : ℕ) (hne : (s.interface i).conn.disconnects ≠ 0) :
    (s.disconnectDone i).Fresh := by
  refine h.setInterface i ((h.numbered i).onDisconnected hne).resume fun hstate => ?_
  cases ((h.numbered i).state_of_disconnects hne).symm.trans hstate

/-! ### Replies -/

/-- The state has not been set to `READY`. -/
structure Undeclared (s s' : Device) : Prop where
  declared : s'.declared = s.declared
  state : s'.state = .ready → s.state = .ready

theorem undeclared_of_move {o o' : Outline} (hmove : Move o o')
    (h : o.declared = s.declared ∧ (o.state = .ready → s.state = .ready)) :
    o'.declared = s.declared ∧ (o'.state = .ready → s.state = .ready) := by
  cases hmove with
  | add => exact h
  | connect | confirm | doubt | fail | giveUp | exit => exact ⟨h.1, nofun⟩

theorem undeclared_onInterfaceError (s : Device) (interface : Option ℕ) :
    Undeclared s (s.onInterfaceError interface) := by
  obtain ⟨hdeclared, hstate⟩ := outline_onInterfaceError (s := s) undeclared_of_move
    ⟨rfl, fun h => h⟩ interface
  exact ⟨hdeclared, hstate⟩

/-- The only reply that counts has the right id, and its request is the only one. -/
theorem confirmed_eq (h : s.state ≠ .confirming ∧ s.state ≠ .confirmingTransient) (c : Confirm)
    (reported : String) : s.confirmed c reported = s := by
  unfold Device.confirmed
  split
  · exact absurd ‹_› h.1
  · exact absurd ‹_› h.2
  all_goals rfl

theorem Idle.not_confirming (h : s.Idle) :
    s.state ≠ .confirming ∧ s.state ≠ .confirmingTransient := by
  rcases h with h | h | h <;> simp [h]

theorem eraseIdx_of_length_le {n : ℕ} (hlen : s.confirms.length ≤ 1)
    (hc : s.confirms[n]? = some c) : s.confirms.eraseIdx n = [] := by
  have hlt := (List.getElem?_eq_some_iff.mp hc).1
  refine length_eq_zero_iff.mp ?_
  rw [length_eraseIdx_of_lt hlt]
  omega

/-- A wrong id is an error of the interface, and then the device is not confirming any more. -/
theorem Fresh.confirmed_onInterfaceError (h : s.Fresh) (hc : c ∈ s.confirms) (reported : String) :
    (Device.onInterfaceError { s with confirms := [] } s.activeInterface).confirmed c reported =
      Device.onInterfaceError { s with confirms := [] } s.activeInterface := by
  have hstate : s.state ≠ .ready := fun hready => by
    rw [h.ready hready] at hc
    cases hc
  refine confirmed_eq ?_ c reported
  rcases onInterfaceError_idle (s := { s with confirms := [] }) hstate with hidle | ⟨heq, hnone⟩
  · exact hidle.not_confirming
  · rw [heq]
    constructor
    · intro hconfirming
      cases hnone.symm.trans (h.confirming (.inl hconfirming) c hc).1
    · intro hconfirming
      cases hnone.symm.trans (h.confirming (.inr hconfirming) c hc).1

theorem Fresh.confirmed (h : s.Fresh) (hnil : s.confirms = []) (c : Confirm)
    (reported : String) : (s.confirmed c reported).Fresh := by
  have hdeclare : (s.declare c reported).Fresh := by
    refine ⟨{ h with }, fun hstate => ?_, fun _ => hnil⟩
    rcases hstate with hstate | hstate <;> cases hstate
  unfold Device.confirmed
  split
  · have hclear : ((s.declare c reported).clearStarted).Fresh := by
      unfold Device.clearStarted
      split
      · exact hdeclare
      · exact hdeclare.setInterface_conn _ rfl
    exact ⟨{ hclear with }, hclear.confirming, hclear.ready⟩
  · exact hdeclare
  all_goals exact h

theorem Fresh.confirmHandler (h : s.Fresh) (hc : c ∈ s.confirms) (deviceId : Option String) :
    (Device.confirmHandler { s with confirms := [] } c deviceId).Fresh := by
  have hclear := h.clearConfirms
  cases deviceId with
  | none => exact hclear.onInterfaceError _
  | some reported =>
    unfold Device.confirmHandler
    dsimp only
    split
    · rw [h.confirmed_onInterfaceError hc reported]
      exact hclear.onInterfaceError _
    · exact hclear.confirmed rfl c reported

/-! ### Whole runs -/

/-- The interface that an attempt to connect fails for. -/
def failedConnect : DeviceEvent → Option ℕ
  | .connectFailed i _ => some i
  | _ => none

/-- A confirm is requested only when the one before has been answered, and no attempt to connect
fails while the interface is connected. -/
structure Orderly (s : Device) (e : DeviceEvent) : Prop where
  confirms : ∀ s' ∈ s.step e, s'.confirms.length ≤ 1
  connect : ∀ i ∈ failedConnect e, (s.interface i).conn.state ≠ .connected

instance (s : Device) (e : DeviceEvent) : Decidable (s.Orderly e) :=
  decidable_of_iff ((∀ s' ∈ s.step e, s'.confirms.length ≤ 1) ∧
      ∀ i ∈ failedConnect e, (s.interface i).conn.state ≠ .connected)
    ⟨fun h => ⟨h.1, h.2⟩, fun h => ⟨h.confirms, h.connect⟩⟩

theorem step_confirmDone (hlen : s.confirms.length ≤ 1) {n : ℕ} {deviceId : Option String}
    (hstep : s.step (.confirmDone n deviceId) = some s') :
    ∃ c, s.confirms[n]? = some c ∧
      s' = Device.confirmHandler { s with confirms := [] } c deviceId := by
  simp only [Device.step] at hstep
  split at hstep
  · cases hstep
  · obtain ⟨c, hc, rfl⟩ := map_eq_some_iff.mp hstep
    exact ⟨c, hc, by rw [eraseIdx_of_length_le hlen hc]⟩

theorem Fresh.step {e : DeviceEvent} (h : s.Fresh) (hlen : s.confirms.length ≤ 1)
    (horderly : s.Orderly e) (hstep : s.step e = some s') : s'.Fresh := by
  have hlen' := horderly.confirms s' hstep
  cases e with simp only [Device.step, ite_none_left_eq_some,
      ite_none_right_eq_some, Option.some.injEq] at hstep
  | confirmDone n deviceId =>
    obtain ⟨c, hc, rfl⟩ := map_eq_some_iff.mp hstep.2
    rw [eraseIdx_of_length_le hlen hc]
    exact h.confirmHandler (mem_of_getElem? hc) deviceId
  | confirmFailed n =>
    obtain ⟨c, hc, rfl⟩ := map_eq_some_iff.mp hstep.2
    rw [eraseIdx_of_length_le hlen hc]
    exact h.clearConfirms.onInterfaceError _
  | connectDone i seq =>
    obtain ⟨-, -, rfl⟩ := hstep
    exact h.connectDone i seq hlen'
  | connectFailed i seq =>
    obtain ⟨-, -, rfl⟩ := hstep
    exact h.connectFailed i seq (horderly.connect i rfl)
  | disconnectDone i =>
    obtain ⟨-, hne, rfl⟩ := hstep
    exact h.disconnectDone i hne
  | disconnectFailed i =>
    obtain ⟨-, -, rfl⟩ := hstep
    exact h.exit
  | retry =>
    obtain ⟨-, -, rfl⟩ := hstep
    have hretries : Fresh { s with retries := s.retries - 1 } :=
      ⟨{ h with }, h.confirming, h.ready⟩
    unfold Device.onRetry
    split
    · exact hretries.connectNextInterface
    · exact hretries
  | addInterface ip port serviceInfo =>
    exact hstep.2 ▸ h.addInterface ip port serviceInfo
  | discoveryRemoval serviceInfo =>
    exact hstep.2 ▸ h.notifyDiscoveryRemoval serviceInfo
  | deviceError id ip port =>
    exact hstep.2 ▸ h.notifyDeviceError id ip port
  | callFailed i =>
    exact hstep.2 ▸ h.onInterfaceError (some i)
  | tick secs =>
    obtain ⟨-, rfl⟩ := hstep
    exact ⟨{ h with }, h.confirming, h.ready⟩

theorem fresh_of_reachable {id : String} (h : (device id).ReachableUnder Orderly s) :
    s.Fresh ∧ s.confirms.length ≤ 1 := by
  refine h.invariant (I := fun s => s.Fresh ∧ s.confirms.length ≤ 1) ?_ ?_
  · have hnumbered : (Interface.initial false : Interface Unit).Numbered :=
      Interface.numbered_of_reachable (.init : (Devices.interface Unit false).Reachable _)
    have hgrounded : (initial id).Grounded :=
      ⟨fun _ => hnumbered, nofun, nofun⟩
    exact ⟨hgrounded.fresh_of_idle (.inl rfl), Nat.zero_le 1⟩
  · intro s e s' hinv horderly hstep
    exact ⟨hinv.1.step hinv.2 horderly hstep, horderly.confirms s' hstep⟩

theorem undeclared_of_step {e : DeviceEvent} (he : ∀ n deviceId, e ≠ .confirmDone n deviceId)
    (hstep : s.step e = some s') : Undeclared s s' := by
  by_cases hexit : ∃ i, e = .disconnectFailed i
  · obtain ⟨i, rfl⟩ := hexit
    obtain ⟨-, hstep⟩ := ite_none_left_eq_some.mp hstep
    obtain ⟨-, hstep⟩ := ite_none_left_eq_some.mp hstep
    exact Option.some.inj hstep ▸ ⟨rfl, fun h => h⟩
  · obtain ⟨hdeclared, hstate⟩ := outline_step (s := s) undeclared_of_move ⟨rfl, fun h => h⟩ hstep
      he fun i hi => hexit ⟨i, hi⟩
    exact ⟨hdeclared, hstate⟩

/-- A reply that makes the device ready is for the current connection and has the id. -/
theorem Fresh.current_of_confirmHandler (h : s.Fresh) (hc : c ∈ s.confirms)
    {deviceId : Option String}
    (hready : ¬Undeclared s (Device.confirmHandler { s with confirms := [] } c deviceId)) :
    deviceId = some s.id ∧ s.Current c := by
  have herror := undeclared_onInterfaceError { s with confirms := [] } s.activeInterface
  cases deviceId with
  | none => exact absurd { herror with } hready
  | some reported =>
    unfold Device.confirmHandler at hready
    dsimp only at hready
    split at hready
    · rw [h.confirmed_onInterfaceError hc reported] at hready
      exact absurd { herror with } hready
    · rename_i hid
      refine ⟨congrArg some (not_not.mp hid).symm, ?_⟩
      by_cases hstate : s.state = .confirming ∨ s.state = .confirmingTransient
      · exact h.confirming hstate c hc
      · refine absurd ?_ hready
        rw [confirmed_eq (s := { s with confirms := [] }) (not_or.mp hstate)]
        exact ⟨rfl, fun h => h⟩

end Device

/-- The state becomes `READY` only in the handler of a confirm reply, which was requested over the
current connection of the active interface and has the id of the device. -/
theorem ready_on_current_confirm {id : String} {s s' : Device} {e : DeviceEvent}
    (h : (device id).ReachableUnder Device.Orderly s) (hstep : s.step e = some s')
    (hready : s'.declared ≠ s.declared ∨ s.state ≠ .ready ∧ s'.state = .ready) :
    ∃ n c, e = .confirmDone n (some s.id) ∧ s.confirms[n]? = some c ∧ s.Current c := by
  obtain ⟨hfresh, hlen⟩ := Device.fresh_of_reachable h
  have hnot : ¬Device.Undeclared s s' := by
    intro hundeclared
    rcases hready with hdeclared | ⟨hstate, hready⟩
    · exact hdeclared hundeclared.declared
    · exact hstate (hundeclared.state hready)
  by_cases he : ∃ n deviceId, e = .confirmDone n deviceId
  · obtain ⟨n, deviceId, rfl⟩ := he
    obtain ⟨c, hc, rfl⟩ := Device.step_confirmDone hlen hstep
    obtain ⟨hid, hcurrent⟩ := hfresh.current_of_confirmHandler (mem_of_getElem? hc) hnot
    exact ⟨n, c, hid ▸ rfl, hc, hcurrent⟩
  · have hother : ∀ n deviceId, e ≠ .confirmDone n deviceId := by
      intro n deviceId heq
      exact he ⟨n, deviceId, heq⟩
    exact absurd (Device.undeclared_of_step hother hstep) hnot

/-- A device is discovered, connected and confirmed. -/
theorem ready_on_current_confirm_first :
    ∃ s s' : Device, (device "a").ReachableUnder Device.Orderly s ∧
      s.step (.confirmDone 0 (some "a")) = some s' ∧ s.state = .confirming ∧ s'.state = .ready ∧
      ∃ n c, DeviceEvent.confirmDone 0 (some "a") = .confirmDone n (some s.id) ∧
        s.confirms[n]? = some c ∧ s.Current c := by
  obtain ⟨s, -, hs, hstate, s', hs', hstate'⟩ := System.exists_reachableUnder (device "a")
    Device.Orderly [.addInterface "10.0.0.2" 80 "x", .connectDone 0 1]
    (fun s => s.state = .confirming ∧
      ∃ s' ∈ s.step (.confirmDone 0 (some "a")), s'.state = .ready)
    (by decide +kernel) (by decide +kernel)
  refine ⟨s, s', hs, hs', hstate, hstate', ?_⟩
  exact ready_on_current_confirm hs hs' (.inr ⟨by rw [hstate]; decide, hstate'⟩)

/-- The connection of a device breaks while it is confirmed and is made again. The reply to the
first confirm comes late and makes the device ready; then the reply to the second comes with
another id, and the device is ready again. -/
theorem ready_on_stale_confirm :
    ∃ s s' s'' : Device, (device "a").Reachable s ∧ s.state = .confirming ∧
      s.confirms[0]? = some ⟨0, 1⟩ ∧ ¬s.Current ⟨0, 1⟩ ∧
      s.step (.confirmDone 0 (some "a")) = some s' ∧ s'.state = .ready ∧
      s'.step (.confirmDone 0 (some "b")) = some s'' ∧ s''.state = .ready ∧
      s''.declared = s'.declared ++ [⟨⟨0, 2⟩, "b", true⟩] := by
  obtain ⟨s, hs, hstate, hconfirm, hcurrent, s', hs', hready, s'', hend⟩ :=
    System.exists_reachable (device "a")
    [.addInterface "10.0.0.2" 80 "x", .connectDone 0 1, .deviceError "a" "10.0.0.2" 80,
      .disconnectDone 0, .retry, .connectDone 0 2]
    (fun s => s.state = .confirming ∧ s.confirms[0]? = some (⟨0, 1⟩ : Confirm) ∧
      ¬s.Current ⟨0, 1⟩ ∧ ∃ s' ∈ s.step (.confirmDone 0 (some "a")), s'.state = .ready ∧
      ∃ s'' ∈ s'.step (.confirmDone 0 (some "b")), s''.state = .ready ∧
        s''.declared = s'.declared ++ [(⟨⟨0, 2⟩, "b", true⟩ : Declaration)])
    (by decide +kernel)
  exact ⟨s, s', s'', hs, hstate, hconfirm, hcurrent, hs', hready, hend⟩

end BeepMusic.Devices
