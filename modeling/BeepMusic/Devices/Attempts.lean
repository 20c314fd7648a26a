import BeepMusic.Devices.Interface

/-!
Late answers of the relay. A success is compared with the number of the last request, a failure
is not: it takes down whatever connection there is at the time. And a disconnect does not take
back a connection that was asked for while the one before was still being given up.
-/

namespace BeepMusic.Devices

open Lib List Option

variable {κ : Type}

namespace Interface

variable {s s' : Interface κ}

/-- Only the last request can be under way, and it is as long as the state says so. -/
structure Numbered (s : Interface κ) : Prop where
  underway : ∀ a ∈ s.attempts, a.superseded = false →
    a.seq = s.connectSeq ∧ s.state = .connecting
  superseded : ∀ a ∈ s.attempts, a.superseded = true → s.state = .connecting →
    a.seq < s.connectSeq
  le : ∀ a ∈ s.attempts, a.seq ≤ s.connectSeq
  disconnects : s.disconnects = if s.state = .disconnecting then 1 else 0
  allowed : ∀ a ∈ s.attempts, s.allowUrelayControl = true

theorem Numbered.of_subset (h : s.Numbered) (hseq : s'.connectSeq = s.connectSeq)
    (hstate : s'.state = s.state) (hsub : s'.attempts ⊆ s.attempts)
    (hdisconnects : s'.disconnects = s.disconnects)
    (hallow : s'.allowUrelayControl = s.allowUrelayControl) : s'.Numbered := by
  refine ⟨fun a ha hnot => ?_, fun a ha hold hconnecting => ?_, fun a ha => ?_, ?_,
    fun a ha => hallow.trans (h.allowed a (hsub ha))⟩
  · rw [hseq, hstate]
    exact h.underway a (hsub ha) hnot
  · rw [hseq]
    exact h.superseded a (hsub ha) hold (hstate ▸ hconnecting)
  · rw [hseq]
    exact h.le a (hsub ha)
  · rw [hdisconnects, hstate]
    exact h.disconnects

theorem Numbered.exit (h : s.Numbered) : s.exit.Numbered :=
  h.of_subset rfl rfl (List.Subset.refl _) rfl rfl

theorem Numbered.answered (h : s.Numbered) (seq : ℕ) : (s.answered seq).Numbered :=
  h.of_subset rfl rfl (fun _ ha => mem_of_mem_filter ha) rfl rfl

theorem mem_map_supersede {attempts : List Attempt} {a : Attempt}
    (ha : a ∈ attempts.map Attempt.supersede) :
    a.superseded = true ∧ ∃ b ∈ attempts, b.seq = a.seq := by
  obtain ⟨b, hb, rfl⟩ := List.mem_map.mp ha
  exact ⟨rfl, b, hb, rfl⟩

section

variable (h : s.Numbered)
include h

theorem Numbered.connect (readyCb : Option κ) : (s.connect readyCb).Numbered := by
  rw [Interface.connect]
  split
  · exact h.exit
  · rename_i hallow
    split
    · exact h.of_subset rfl rfl (List.Subset.refl _) rfl rfl
    · exact h.of_subset rfl rfl (List.Subset.refl _) rfl rfl
    · exact h
    · rename_i hstate
      have hold : ∀ a ∈ s.attempts.map Attempt.supersede, a.seq ≤ s.connectSeq := by
        intro a ha
        obtain ⟨-, b, hb, hseq⟩ := mem_map_supersede ha
        exact hseq ▸ h.le b hb
      refine ⟨fun a ha hnot => ?_, fun a ha hsuperseded _ => ?_, fun a ha => ?_, ?_,
        fun _ _ => not_not.mp hallow⟩
      · rcases mem_append.mp ha with ha | ha
        · cases hnot.symm.trans (mem_map_supersede ha).1
        · exact ⟨congrArg Attempt.seq (mem_singleton.mp ha), rfl⟩
      · rcases mem_append.mp ha with ha | ha
        · exact Nat.lt_succ_of_le (hold a ha)
        · rw [mem_singleton.mp ha] at hsuperseded
          cases hsuperseded
      · rcases mem_append.mp ha with ha | ha
        · exact Nat.le_succ_of_le (hold a ha)
        · exact Nat.le_of_eq (congrArg Attempt.seq (mem_singleton.mp ha))
      · have hnone := h.disconnects
        rw [hstate] at hnone
        exact hnone

theorem Numbered.disconnect (doneCb : Option κ) : (s.disconnect doneCb).Numbered := by
  have hleave : s.state ≠ .disconnecting → Numbered { s with
      state := .disconnecting
      disconnectedCb := doneCb
      attempts := s.attempts.map Attempt.supersede
      disconnects := s.disconnects + 1 } := by
    intro hstate
    have hnone : s.disconnects = 0 := h.disconnects.trans (if_neg hstate)
    refine ⟨fun a ha hnot => ?_, nofun, fun a ha => ?_,
      congrArg Nat.succ hnone, fun a ha => ?_⟩
    · cases hnot.symm.trans (mem_map_supersede ha).1
    · obtain ⟨-, b, hb, hseq⟩ := mem_map_supersede ha
      exact hseq ▸ h.le b hb
    · obtain ⟨-, b, hb, -⟩ := mem_map_supersede ha
      exact h.allowed b hb
  rw [Interface.disconnect]
  split
  · exact h.exit
  · split
    · exact hleave (by simp [*])
    · exact hleave (by simp [*])
    · exact h.of_subset rfl rfl (List.Subset.refl _) rfl rfl
    · exact h

theorem Numbered.performAll (calls : List (InterfaceCall κ)) : (s.performAll calls).Numbered := by
  induction calls generalizing s with
  | nil => exact h
  | cons c calls ih =>
    refine ih ?_
    cases c with
    | connect readyCb => exact h.connect readyCb
    | disconnect doneCb => exact h.disconnect doneCb

theorem Numbered.state_of_disconnects (hne : s.disconnects ≠ 0) : s.state = .disconnecting := by
  by_contra hstate
  exact hne (h.disconnects.trans (if_neg hstate))

theorem Numbered.onDisconnected (hne : s.disconnects ≠ 0) : s.onDisconnected.Numbered := by
  have hstate := h.state_of_disconnects hne
  have hone : s.disconnects = 1 := h.disconnects.trans (if_pos hstate)
  refine ⟨fun a ha hnot => ?_, nofun, h.le, ?_, h.allowed⟩
  · cases hstate.symm.trans (h.underway a ha hnot).2
  · exact congrArg Nat.pred hone

theorem Numbered.resume : s.resume.Numbered := by
  rw [Interface.resume]
  split
  · refine Numbered.connect ?_ _
    exact h.of_subset rfl rfl (List.Subset.refl _) rfl rfl
  · exact h

/-- A request that was under way is answered and leaves none behind. -/
theorem Numbered.onConnected (seq : ℕ) : ((s.answered seq).onConnected seq).Numbered := by
  have hrest := h.answered seq
  rw [Interface.onConnected]
  split
  · rename_i hconnects
    refine ⟨fun a ha hnot => ?_, nofun, hrest.le, ?_, hrest.allowed⟩
    · have hne : a.seq ≠ seq := of_decide_eq_true (mem_filter.mp ha).2
      exact absurd ((hrest.underway a ha hnot).1.trans hconnects.2) hne
    · have hnone := hrest.disconnects
      rw [hconnects.1] at hnone
      exact hnone
  · exact hrest

theorem Numbered.step {e : InterfaceEvent κ} (hstep : s.step e = some s') : s'.Numbered := by
  obtain ⟨-, hstep⟩ := ite_none_left_eq_some.mp hstep
  cases e with try obtain ⟨-, rfl⟩ := ite_some_none_eq_some.mp hstep
  | call c => exact Option.some.inj hstep ▸ h.performAll [c]
  | connectDone seq =>
    exact h.onConnected seq
  | connectFailed seq handler =>
    exact ((h.answered seq).performAll handler).disconnect none
  | disconnectDone handler =>
    obtain ⟨hne, hs'⟩ := ite_none_left_eq_some.mp hstep
    exact Option.some.inj hs' ▸ ((h.onDisconnected hne).performAll _).resume
  | disconnectFailed =>
    obtain ⟨-, hs'⟩ := ite_none_left_eq_some.mp hstep
    exact Option.some.inj hs' ▸ h.exit

end

theorem numbered_of_reachable {isConnected : Bool} (h : (interface κ isConnected).Reachable s) :
    s.Numbered := by
  refine h.invariant ⟨nofun, nofun, nofun, ?_, nofun⟩
    fun s e s' hs hstep => hs.step hstep
  · cases isConnected <;> rfl

/-- The success of a request that has been superseded is only taken note of. -/
theorem Numbered.onConnected_superseded (h : s.Numbered) {a : Attempt} (ha : a ∈ s.attempts)
    (hsuperseded : a.superseded = true) :
    (s.answered a.seq).onConnected a.seq = s.answered a.seq := by
  refine if_neg fun hconnects => ?_
  exact absurd hconnects.2.symm (Nat.ne_of_lt (h.superseded a ha hsuperseded hconnects.1))

/-- There is no connection, and none is asked for. -/
structure Parted (seq : ℕ) (s : Interface κ) : Prop where
  connectSeq : s.connectSeq = seq
  reconnect : s.reconnect = none
  state : s.state = .disconnecting ∨ s.state = .disconnected

theorem disconnect_state (hallow : s.allowUrelayControl = true) (doneCb : Option κ) :
    (s.disconnect doneCb).state = .disconnecting ∨ (s.disconnect doneCb).state = .disconnected := by
  rw [Interface.disconnect, if_neg (not_not_intro hallow)]
  split
  · exact .inl rfl
  · exact .inl rfl
  · rename_i hstate
    exact .inl hstate
  · rename_i hstate
    exact .inr hstate

theorem disconnect_connectSeq (s : Interface κ) (doneCb : Option κ) :
    (s.disconnect doneCb).connectSeq = s.connectSeq ∧
      (s.disconnect doneCb).reconnect = s.reconnect := by
  rw [Interface.disconnect]
  split
  · exact ⟨rfl, rfl⟩
  · split <;> exact ⟨rfl, rfl⟩

variable {seq : ℕ}

/-- A disconnect with nothing there to be given up leaves the state alone. -/
theorem disconnect_state_eq (hstate : s.state = .disconnecting ∨ s.state = .disconnected)
    (doneCb : Option κ) : (s.disconnect doneCb).state = s.state := by
  rw [Interface.disconnect]
  split
  · rfl
  · rcases hstate with hstate | hstate
    · simp [hstate]
    · simp [hstate]

theorem Parted.disconnect (h : s.Parted seq) (doneCb : Option κ) :
    (s.disconnect doneCb).Parted seq := by
  obtain ⟨hseq, hreconnect⟩ := disconnect_connectSeq s doneCb
  refine ⟨hseq.trans h.connectSeq, hreconnect.trans h.reconnect, ?_⟩
  rw [disconnect_state_eq h.state]
  exact h.state

end Interface

def InterfaceCall.IsConnect : InterfaceCall κ → Prop
  | .connect _ => True
  | .disconnect _ => False

/-- The calls that are made in the course of an event. -/
def InterfaceEvent.calls : InterfaceEvent κ → List (InterfaceCall κ)
  | .call c => [c]
  | .connectFailed _ handler | .disconnectDone handler => handler
  | .connectDone _ | .disconnectFailed => []

namespace Interface

variable {s s' : Interface κ} {seq : ℕ}

theorem Parted.resume_eq (h : s.Parted seq) : s.resume = s := by
  rw [Interface.resume, h.reconnect]

theorem Parted.performAll (h : s.Parted seq) (calls : List (InterfaceCall κ))
    (hcalls : ∀ c ∈ calls, ¬c.IsConnect) : (s.performAll calls).Parted seq := by
  induction calls generalizing s with
  | nil => exact h
  | cons c calls ih =>
    have hfirst := hcalls c (.head calls)
    refine ih ?_ fun c' hc' => hcalls c' (.tail c hc')
    cases c with
    | connect readyCb => exact absurd trivial hfirst
    | disconnect doneCb => exact h.disconnect doneCb

theorem Parted.step {e : InterfaceEvent κ} (h : s.Parted seq)
    (hcalls : ∀ c ∈ e.calls, ¬c.IsConnect) (hstep : s.step e = some s') : s'.Parted seq := by
  have hanswered : ∀ n, (s.answered n).Parted seq :=
    fun n => { h with }
  obtain ⟨-, hstep⟩ := ite_none_left_eq_some.mp hstep
  cases e with
  | call c => exact Option.some.inj hstep ▸ h.performAll [c] hcalls
  | connectDone n =>
    obtain ⟨-, hs'⟩ := ite_none_right_eq_some.mp hstep
    have hnot : ¬(s.answered n).Connects n := by
      rintro ⟨hconnecting, -⟩
      rcases (hanswered n).state with hstate | hstate <;> cases hconnecting.symm.trans hstate
    rw [onConnected, if_neg hnot] at hs'
    exact Option.some.inj hs' ▸ hanswered n
  | connectFailed n handler =>
    obtain ⟨-, rfl⟩ := ite_some_none_eq_some.mp hstep
    exact ((hanswered n).performAll handler hcalls).disconnect none
  | disconnectDone handler =>
    obtain ⟨-, hs'⟩ := ite_none_left_eq_some.mp hstep
    have hdone : s.onDisconnected.Parted seq := { h with state := .inr rfl }
    have hcalls' : ∀ c ∈ (if s.disconnectedCb.isSome then handler else []), ¬c.IsConnect := by
      split
      · exact hcalls
      · simp
    have hafter := hdone.performAll _ hcalls'
    exact ((Option.some.inj hs').symm.trans hafter.resume_eq) ▸ hafter
  | disconnectFailed =>
    obtain ⟨-, hs'⟩ := ite_none_left_eq_some.mp hstep
    exact Option.some.inj hs' ▸ { h with }

theorem perform_allowUrelayControl (s : Interface κ) (c : InterfaceCall κ) :
    (s.perform c).allowUrelayControl = s.allowUrelayControl := by
  cases c with
  | connect readyCb =>
    simp only [perform, connect]
    split
    · rfl
    · split <;> rfl
  | disconnect doneCb =>
    simp only [perform, disconnect]
    split
    · rfl
    · split <;> rfl

/-- A connection that is there, asked for or given up is not gone until the relay answers. -/
theorem perform_state_eq_disconnected (hallow : s.allowUrelayControl = true)
    (c : InterfaceCall κ) :
    (s.perform c).state = .disconnected ↔ s.state = .disconnected ∧ ¬c.IsConnect := by
  cases c with
  | connect readyCb => cases hstate : s.state <;> simp [perform, connect, hallow, hstate,
      InterfaceCall.IsConnect]
  | disconnect doneCb => cases hstate : s.state <;> simp [perform, disconnect, hallow, hstate,
      InterfaceCall.IsConnect]

theorem performAll_state_eq_disconnected (hallow : s.allowUrelayControl = true)
    (calls : List (InterfaceCall κ)) :
    (s.performAll calls).state = .disconnected ↔
      s.state = .disconnected ∧ ∀ c ∈ calls, ¬c.IsConnect := by
  induction calls generalizing s with
  | nil => simp [Interface.performAll]
  | cons c calls ih =>
    change ((s.perform c).performAll calls).state = _ ↔ _
    rw [ih ((s.perform_allowUrelayControl c).trans hallow),
      perform_state_eq_disconnected hallow, and_assoc, forall_mem_cons]

/-- What is left of a connection after the error handler is given up, so the state stays only if
there is nothing to give up. -/
theorem failed_state_eq_iff (hallow : s.allowUrelayControl = true)
    (handler : List (InterfaceCall κ)) :
    ((s.performAll handler).disconnect none).state = s.state ↔
      s.state = .disconnecting ∨ s.state = .disconnected ∧ ∀ c ∈ handler, ¬c.IsConnect := by
  have hallow' : (s.performAll handler).allowUrelayControl = true :=
    foldlRecOn (motive := fun t : Interface κ => t.allowUrelayControl = true) handler _ hallow
      fun t ht c _ => (t.perform_allowUrelayControl c).trans ht
  have hgone : ((s.performAll handler).disconnect none).state = .disconnected ↔
      s.state = .disconnected ∧ ∀ c ∈ handler, ¬c.IsConnect := by
    refine (perform_state_eq_disconnected hallow' (.disconnect none)).trans ?_
    rw [performAll_state_eq_disconnected hallow]
    simp [InterfaceCall.IsConnect]
  cases hstate : s.state with
  | disconnected => simpa [hstate] using hgone
  | disconnecting =>
    have hleft := disconnect_state hallow' none
    simpa [hgone, hstate] using hleft
  | connecting | connected =>
    rcases disconnect_state hallow' none with hleft | hleft <;> simp [hleft]

theorem step_of_exited (h : s.exited = true) (e : InterfaceEvent κ) : s.step e = none :=
  if_pos h

end Interface

/-- The success of a request that has been superseded does not change the state. Its failure leaves
the state exactly if the connection is being given up, or if there is none and the error handler
asks for none; and after a disconnect, when no connection was
asked for that is still to come, no request is made until the next `connect`. -/
theorem superseded_answers_ignored {isConnected : Bool} {s s' : Interface κ}
    (h : (interface κ isConnected).Reachable s) :
    (∀ a ∈ s.attempts, a.superseded = true →
      (s.step (.connectDone a.seq) = some s' → s' = s.answered a.seq) ∧
      ∀ handler, s.step (.connectFailed a.seq handler) = some s' →
        (s'.state = s.state ↔
          s.state = .disconnecting ∨ s.state = .disconnected ∧ ∀ c ∈ handler, ¬c.IsConnect)) ∧
    ∀ doneCb es s'', s.step (.call (.disconnect doneCb)) = some s' → s.reconnect = none →
      (∀ e ∈ es, ∀ c ∈ e.calls, ¬c.IsConnect) →
      (interface κ isConnected).runFrom s' es = some s'' → s''.connectSeq = s.connectSeq := by
  have hnumbered := Interface.numbered_of_reachable h
  refine ⟨fun a ha hsuperseded => ⟨fun hstep => ?_, fun handler hstep => ?_⟩,
    fun doneCb es s'' hstep hreconnect hes hrun => ?_⟩
  · obtain ⟨-, hs'⟩ := ite_none_left_eq_some.mp hstep
    obtain ⟨-, hs'⟩ := ite_none_right_eq_some.mp hs'
    rw [hnumbered.onConnected_superseded ha hsuperseded] at hs'
    exact (Option.some.inj hs').symm
  · obtain ⟨-, hs'⟩ := ite_none_left_eq_some.mp hstep
    obtain ⟨-, hs'⟩ := ite_none_right_eq_some.mp hs'
    rw [← Option.some.inj hs']
    exact Interface.failed_state_eq_iff (s := s.answered a.seq) (hnumbered.allowed a ha) handler
  · obtain ⟨-, hs'⟩ := ite_none_left_eq_some.mp hstep
    obtain rfl : s.disconnect doneCb = s' := Option.some.inj hs'
    obtain ⟨hseq, hrecon⟩ := Interface.disconnect_connectSeq s doneCb
    cases hallow : s.allowUrelayControl with
    | false =>
      have hexit : (s.disconnect doneCb).exited = true := by
        rw [Interface.disconnect, if_pos (by simp [hallow])]
        rfl
      cases es with
      | nil => exact Option.some.inj hrun ▸ hseq
      | cons e es =>
        obtain ⟨t, ht, -⟩ := bind_eq_some_iff.mp hrun
        cases (Interface.step_of_exited hexit e).symm.trans ht
    | true =>
      have hparted : (s.disconnect doneCb).Parted s.connectSeq :=
        ⟨hseq, hrecon.trans hreconnect, Interface.disconnect_state hallow doneCb⟩
      exact (System.runFrom_invariant (I := Interface.Parted s.connectSeq) hrun hparted
        fun t e t' he ht hstep => ht.step (hes e he) hstep).connectSeq

/-- A connection is given up before the request for it is answered; another one is given up after
that. -/
theorem superseded_answers_ignored_late :
    ∃ s s' u t t' : Interface ℕ, (interface ℕ false).Reachable s ∧ ⟨1, true⟩ ∈ s.attempts ∧
      s.state = .disconnected ∧ s.step (.connectDone 1) = some s' ∧ s' = s.answered 1 ∧
      s.step (.connectFailed 1 [.disconnect none]) = some u ∧ u.state = s.state ∧
      (interface ℕ false).Reachable t ∧ t.state = .connected ∧
      t.step (.call (.disconnect none)) = some t' ∧
      ∀ t'', (interface ℕ false).runFrom t' [.disconnectDone []] = some t'' →
        t''.connectSeq = t.connectSeq := by
  obtain ⟨s, hs, ha, hnone, hsome, hfails⟩ := System.exists_reachable (interface ℕ false)
    [.call (.connect none), .call (.disconnect none), .disconnectDone []]
    (fun s => ⟨1, true⟩ ∈ s.attempts ∧ s.state = .disconnected ∧
      (s.step (.connectDone 1)).isSome ∧
      (s.step (.connectFailed 1 [.disconnect none])).isSome) (by decide +kernel)
  obtain ⟨t, ht, hconnected, hreconnect, hsome'⟩ := System.exists_reachable (interface ℕ false)
    [.call (.connect none), .connectDone 1]
    (fun t => t.state = .connected ∧ t.reconnect = none ∧
      (t.step (.call (.disconnect none))).isSome) (by decide +kernel)
  obtain ⟨s', hs'⟩ := isSome_iff_exists.mp hsome
  obtain ⟨u, hu⟩ := isSome_iff_exists.mp hfails
  obtain ⟨t', ht'⟩ := isSome_iff_exists.mp hsome'
  have hfailed := ((superseded_answers_ignored hs).1 _ ha rfl).2 _ hu
  refine ⟨s, s', u, t, t', hs, ha, hnone, hs', ((superseded_answers_ignored hs).1 _ ha rfl).1 hs',
    hu, hfailed.mpr (.inr ⟨hnone, by simp [InterfaceCall.IsConnect]⟩), ht, hconnected, ht',
    fun t'' hrun => ?_⟩
  exact (superseded_answers_ignored ht).2 none [.disconnectDone []] t'' ht' hreconnect
    (by simp [InterfaceEvent.calls]) hrun

/-- A request that has been superseded fails and takes down the next one; and a connection that
was asked for during a disconnect is made after a second disconnect. -/
theorem late_failure_and_reconnect :
    (∃ s s' : Interface ℕ, (interface ℕ false).Reachable s ∧ ⟨1, true⟩ ∈ s.attempts ∧
      s.state = .connecting ∧ s.step (.connectFailed 1 []) = some s' ∧
      s'.state = .disconnecting) ∧
    ∃ s s' s'' : Interface ℕ, (interface ℕ false).Reachable s ∧
      s.step (.call (.disconnect none)) = some s' ∧
      (interface ℕ false).runFrom s' [.disconnectDone []] = some s'' ∧
      s''.connectSeq = s.connectSeq + 1 := by
  obtain ⟨s, hs, ha, hconnecting, s', hfailed⟩ := System.exists_reachable (interface ℕ false)
    [.call (.connect none), .call (.disconnect none), .disconnectDone [], .call (.connect none)]
    (fun s => ⟨1, true⟩ ∈ s.attempts ∧ s.state = .connecting ∧
      ∃ s' ∈ s.step (.connectFailed 1 []), s'.state = .disconnecting)
    (by decide +kernel)
  obtain ⟨t, ht, t', ht', t'', hrun, hseq⟩ := System.exists_reachable (interface ℕ false)
    [.call (.connect none), .call (.disconnect none), .call (.connect (some 0))]
    (fun t => ∃ t' ∈ t.step (.call (.disconnect none)),
      ∃ t'' ∈ (interface ℕ false).runFrom t' [.disconnectDone []],
        t''.connectSeq = t.connectSeq + 1) (by decide +kernel)
  exact ⟨⟨s, s', hs, ha, hconnecting, hfailed⟩, t, t', t'', ht, ht', hrun, hseq⟩

end BeepMusic.Devices
