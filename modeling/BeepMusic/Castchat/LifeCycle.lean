import BeepMusic.Castchat.Clients

/-!
The life cycle of a client. `client_event_cb` reads the state of a client without its lock and then
overwrites it, so what another thread has made of the state in between is lost. If nothing
changes the state between the read and the write, a client that is being finalized is only
destroyed, and one that has been bound stays so.
-/

namespace BeepMusic.Castchat

open Lib Option

/-- How the state of a client may change. -/
structure Forward (a b : ClState) : Prop where
  finalizing : a = .finalizing → b = .finalizing ∨ b = .destroyPending
  destroyPending : a = .destroyPending → b = .destroyPending
  bound : a.isBound = true → b.isBound = true

namespace Forward

variable {a b c : ClState}

theorem refl (a : ClState) : Forward a a := ⟨fun h => .inl h, fun h => h, fun h => h⟩

theorem trans (hab : Forward a b) (hbc : Forward b c) : Forward a c := by
  refine ⟨fun h => ?_, fun h => hbc.destroyPending (hab.destroyPending h),
    fun h => hbc.bound (hab.bound h)⟩
  rcases hab.finalizing h with hb | hb
  · exact hbc.finalizing hb
  · exact .inr (hbc.destroyPending hb)

/-- A state from before the client was bound may become any other. -/
theorem of_unbound (h : a.isBound = false) : Forward a b := by
  refine ⟨fun ha => ?_, fun ha => ?_, fun ha => ?_⟩
  · rw [ha] at h
    cases h
  · rw [ha] at h
    cases h
  · rw [h] at ha
    cases ha

end Forward

/-- What a client is known by. -/
def Client.ident (c : Client) : Conn × String × String × ℕ := (c.conn, c.uuid, c.appName, c.hash)

namespace Comm

variable {s s' : Comm}

/-- What the lock sections of all threads have in common: no client goes back, none is added or
removed, and the uloop thread stays where it is. -/
structure Calm (s s' : Comm) : Prop where
  forward : ∀ i, Forward (s.client i).state (s'.client i).state
  ident : ∀ i, (s'.client i).ident = (s.client i).ident
  made : s'.made = s.made
  list : s'.clientList = s.clientList
  pc : s'.pc = s.pc

namespace Calm

theorem of_eq (hclient : s'.client = s.client) (hmade : s'.made = s.made)
    (hlist : s'.clientList = s.clientList) (hpc : s'.pc = s.pc) : s.Calm s' :=
  ⟨fun _ => hclient ▸ .refl _, fun _ => hclient ▸ rfl, hmade, hlist, hpc⟩

theorem refl (s : Comm) : s.Calm s := of_eq rfl rfl rfl rfl

theorem trans {s'' : Comm} (h : s.Calm s') (h' : s'.Calm s'') : s.Calm s'' :=
  ⟨fun i => (h.forward i).trans (h'.forward i), fun i => (h'.ident i).trans (h.ident i),
    h'.made.trans h.made, h'.list.trans h.list, h'.pc.trans h.pc⟩

end Calm

variable {i : ℕ} {e : CommEvent}

theorem calm_setClient {c : Client} (hstate : Forward (s.client i).state c.state)
    (hident : c.ident = (s.client i).ident) : s.Calm (s.setClient i c) := by
  refine ⟨fun j => ?_, fun j => ?_, rfl, rfl, rfl⟩
  · unfold setClient
    dsimp only
    split
    · rename_i hj
      exact hj ▸ hstate
    · exact .refl _
  · unfold setClient
    dsimp only
    split
    · rename_i hj
      exact hj ▸ hident
    · rfl

theorem calm_finalizeClient (s : Comm) (i : ℕ) : s.Calm (s.finalizeClient i) := by
  unfold finalizeClient
  split
  · exact .refl s
  · rename_i hstate
    have hset : s.Calm (s.setClient i ((s.client i).setState .finalizing)) :=
      calm_setClient ⟨fun _ => .inl rfl, fun h => absurd h hstate, fun _ => rfl⟩ rfl
    exact hset.trans (.of_eq rfl rfl rfl rfl)

theorem calm_unlockClient (s : Comm) (locked : Option ℕ) (i : ℕ) :
    s.Calm (s.unlockClient locked i) := by
  unfold unlockClient
  split
  · exact .refl s
  · exact .of_eq rfl rfl rfl rfl

/-! ### Lock sections -/

theorem calm_wsHello (h : (s.client i).state.isBound = false) (header : Header) (length : Int)
    (nameSpace : String) : s.Calm (s.wsHello i header length nameSpace) := by
  unfold wsHello
  split
  · split
    · exact calm_finalizeClient s i
    · refine Calm.trans (calm_setClient (.of_unbound h) ?_) (.of_eq rfl rfl rfl rfl)
      rfl
  · exact calm_finalizeClient s i

theorem calm_wsMessage (s : Comm) (i : ℕ) (length : Int) (nameSpace : String)
    (text : Option String) : s.Calm (s.wsMessage i length nameSpace text) := by
  unfold wsMessage
  split
  · exact calm_finalizeClient s i
  · split
    · exact calm_finalizeClient s i
    · exact .of_eq rfl rfl rfl rfl

theorem calm_wsData (s : Comm) (conn : Conn) (frame : Frame) : s.Calm (s.wsData conn frame) := by
  unfold wsData
  split
  · exact .refl s
  · rename_i i _
    cases frame with
    | close | noData | noHeader => exact calm_finalizeClient s i
    | pong => exact calm_setClient (.refl _) rfl
    | message header text =>
      dsimp only
      split
      · exact .of_eq rfl rfl rfl rfl
      · exact calm_finalizeClient s i
      · split
        · exact calm_wsMessage s i _ _ text
        · rename_i hbound
          exact calm_wsHello (eq_false_of_ne_true hbound) header _ _

theorem calm_invokeDone (s : Comm) (invoke : Invoke) (failed : Bool) :
    s.Calm (s.invokeDone invoke failed) := by
  have hsignal : ∀ t : Comm, s.Calm t → s.Calm (if invoke.hello then t.addSignal else t) := by
    intro t ht
    split
    · exact ht.trans (.of_eq rfl rfl rfl rfl)
    · exact ht
  refine hsignal _ ?_
  split
  · split
    · exact .refl s
    · exact calm_finalizeClient s _
  · exact .refl s

theorem calm_pingCb (s : Comm) (i : ℕ) : s.Calm (s.pingCb i) := by
  unfold pingCb
  split
  · exact .refl s
  · have hpinged : s.Calm (s.setClient i (s.client i).pinged) := calm_setClient (.refl _) rfl
    exact hpinged.trans (calm_unlockClient _ _ i)

theorem calm_pongCb (s : Comm) (i : ℕ) : s.Calm (s.pongCb i) := by
  have hclear : s.Calm (s.setClient i (s.client i).clearPong) := calm_setClient (.refl _) rfl
  unfold pongCb
  dsimp only
  split
  · exact hclear
  · refine Calm.trans ?_ (calm_unlockClient _ _ i)
    split
    · exact hclear
    · exact hclear.trans (calm_finalizeClient _ i)

theorem calm_appClose (s : Comm) (senderId appId : String) :
    s.Calm (s.appClose senderId appId) := by
  unfold appClose
  split
  · exact .refl s
  · exact calm_finalizeClient s _

theorem calm_foldl_finalizeClient (s : Comm) (l : List ℕ) :
    s.Calm (l.foldl finalizeClient s) := by
  induction l generalizing s with
  | nil => exact .refl s
  | cons i l ih => exact (calm_finalizeClient s i).trans (ih _)

theorem whenIdle_eq_some {t : Comm} (h : s.whenIdle s' = some t) : s.pc = .idle ∧ s' = t := by
  unfold whenIdle at h
  split at h
  · exact ⟨‹_›, Option.some.inj h⟩
  · cases h

/-- What an event can do, if it is not the next step of the uloop thread. -/
inductive Effect (s s' : Comm) : Prop
  | calm (h : s.Calm s')
  | ready (conn : Conn) (uuid appName : String) (sessionId : Int)
      (h : s' = s.wsReady conn uuid appName sessionId)
  | scan (h : s' = { s with events := s.events - 1, pc := .scan s.clientList })
  | unbound (i : ℕ) (h : s' = (s.setClient i (s.client i).clearHello).setPc (.sawUnbound i))

/-- Whether an event is the next step of the uloop thread in what it is doing. -/
def goesOn : CommEvent → Bool
  | .uloop => true
  | _ => false

theorem effect_of_step (he : goesOn e = false) (hstep : s.step e = some s') : s.Effect s' := by
  obtain ⟨-, hstep⟩ := ite_none_left_eq_some.mp hstep
  cases e with
  | uloop => cases he
  | wsReady conn uuid appName sessionId =>
    exact .ready conn uuid appName sessionId (Option.some.inj hstep).symm
  | wsData conn frame => exact .calm (Option.some.inj hstep ▸ calm_wsData s conn frame)
  | invokeDone n failed =>
    obtain ⟨invoke, -, rfl⟩ := map_eq_some_iff.mp hstep
    have hdone := calm_invokeDone { s with invokes := s.invokes.eraseIdx n } invoke failed
    exact .calm { hdone with }
  | signal =>
    obtain ⟨-, hstep⟩ := ite_none_left_eq_some.mp hstep
    exact .calm (Option.some.inj hstep ▸ .of_eq rfl rfl rfl rfl)
  | clientEvent =>
    obtain ⟨-, hstep⟩ := ite_none_left_eq_some.mp hstep
    exact .scan (whenIdle_eq_some hstep).2.symm
  | helloTimeout i =>
    obtain ⟨-, hstep⟩ := ite_none_right_eq_some.mp hstep
    obtain ⟨-, rfl⟩ := whenIdle_eq_some hstep
    unfold helloTimeoutCb
    dsimp only
    split
    · exact .calm (calm_setClient (.refl _) rfl)
    · exact .unbound i rfl
  | pingTimeout i =>
    obtain ⟨-, hstep⟩ := ite_none_right_eq_some.mp hstep
    exact .calm ((whenIdle_eq_some hstep).2 ▸ calm_pingCb s i)
  | pongTimeout i =>
    obtain ⟨-, hstep⟩ := ite_none_right_eq_some.mp hstep
    exact .calm ((whenIdle_eq_some hstep).2 ▸ calm_pongCb s i)
  | appClose senderId appId =>
    exact .calm ((whenIdle_eq_some hstep).2 ▸ calm_appClose s senderId appId)
  | appCloseAll appId =>
    exact .calm ((whenIdle_eq_some hstep).2 ▸ calm_foldl_finalizeClient s _)

theorem uloop_of_step (he : goesOn e = true) (hstep : s.step e = some s') : s.uloop = some s' := by
  cases e with
  | uloop =>
    exact (ite_none_left_eq_some.mp hstep).2
  | _ => cases he

/-! ### The uloop thread -/

/-- What the uloop thread has seen still holds. -/
structure Seen (s : Comm) : Prop where
  connected : ∀ i, s.pc = .sawConnected i → (s.client i).state = .connected
  bound : ∀ i, s.pc = .sawBound i → (s.client i).state = .bound

theorem Seen.forward_uloop (h : s.Seen) (hstep : s.uloop = some s') (k : ℕ) :
    Forward (s.client k).state (s'.client k).state := by
  unfold Comm.uloop at hstep
  split at hstep
  · cases hstep
  · cases hstep
    exact .refl _
  · cases hstep
    exact .refl _
  · rename_i i hpc
    split at hstep
    · cases hstep
      exact .refl _
    · cases hstep
      have hwait : s.Calm (s.setClient i (s.client i).waitBind) :=
        calm_setClient (.of_unbound (by rw [h.connected i hpc]; rfl)) rfl
      exact (hwait.trans (calm_unlockClient _ _ i)).forward k
  · rename_i i hpc
    cases hstep
    have hactive : Forward (s.client i).state .active := by
      rw [h.bound i hpc]
      exact ⟨nofun, nofun, fun _ => rfl⟩
    have hcalm : s.Calm (s.setClient i (s.client i).activate) := calm_setClient hactive rfl
    exact hcalm.forward k
  · rename_i i hpc
    cases hstep
    have hpending : s.Calm (s.setClient i ((s.client i).setState .destroyPending)) :=
      calm_setClient ⟨fun _ => .inr rfl, fun _ => rfl, fun _ => rfl⟩ rfl
    exact hpending.forward k
  · rename_i i hpc
    cases hstep
    have hcancel : s.Calm (s.setClient i (s.client i).cancelTimers) :=
      calm_setClient (.refl _) rfl
    exact hcancel.forward k
  · rename_i i hpc
    cases hstep
    exact ((calm_finalizeClient s i).trans (calm_unlockClient _ _ i)).forward k

theorem wsReady_client {conn : Conn} {uuid appName : String} {sessionId : Int} (hi : i < s.made) :
    (s.wsReady conn uuid appName sessionId).client i = s.client i := by
  unfold wsReady
  split
  · rfl
  · exact if_neg (Nat.ne_of_lt hi)

theorem pc_wsReady (s : Comm) (conn : Conn) (uuid appName : String) (sessionId : Int) :
    (s.wsReady conn uuid appName sessionId).pc = s.pc := by
  unfold wsReady
  split <;> rfl

theorem Seen.forward (h : s.Seen) (hstep : s.step e = some s') (hi : i < s.made) :
    Forward (s.client i).state (s'.client i).state := by
  cases he : goesOn e with
  | true => exact h.forward_uloop (uloop_of_step he hstep) i
  | false =>
    cases effect_of_step he hstep with
    | calm hcalm => exact hcalm.forward i
    | ready conn uuid appName sessionId heq =>
      rw [heq, wsReady_client hi]
      exact .refl _
    | scan heq => exact heq ▸ .refl _
    | unbound j heq =>
      have hclear : s.Calm (s.setClient j (s.client j).clearHello) :=
        calm_setClient (.refl _) rfl
      exact heq ▸ hclear.forward i

/-- The client whose state the uloop thread has read and is about to overwrite. -/
def watched : Pc → Option ℕ
  | .sawConnected i | .sawBound i => some i
  | _ => none

/-- Nothing but the uloop thread itself makes it see a state. -/
theorem pc_of_step (he : goesOn e = false) (hstep : s.step e = some s') :
    s'.pc = s.pc ∨ watched s'.pc = none := by
  cases effect_of_step he hstep with
  | calm hcalm => exact .inl hcalm.pc
  | ready conn uuid appName sessionId heq =>
    exact .inl (heq ▸ pc_wsReady s conn uuid appName sessionId)
  | scan heq | unbound i heq => exact .inr (heq ▸ rfl)

theorem seen_of_watched_none (h : watched s.pc = none) : s.Seen := by
  refine ⟨fun i hpc => ?_, fun i hpc => ?_⟩
  · rw [hpc] at h
    cases h
  · rw [hpc] at h
    cases h

/-- The uloop thread sees a state when it reads it. -/
theorem seen_of_uloop (hstep : s.uloop = some s') : s'.Seen := by
  unfold Comm.uloop at hstep
  split at hstep
  · cases hstep
  · cases hstep
    exact seen_of_watched_none rfl
  · rename_i i rest hpc
    cases hstep
    cases hstate : (s.client i).state with
    | connected => exact ⟨fun j hj => by cases hj; exact hstate, nofun⟩
    | bound => exact ⟨nofun, fun j hj => by cases hj; exact hstate⟩
    | finalizing | new | waitBind | active | destroyPending => exact seen_of_watched_none rfl
  · split at hstep
    · cases hstep
      exact seen_of_watched_none rfl
    · cases hstep
      exact seen_of_watched_none rfl
  all_goals
    cases hstep
    exact seen_of_watched_none rfl

/-- Nothing changes a state that the uloop thread has read and is about to overwrite. -/
def Undisturbed (s : Comm) (e : CommEvent) : Prop :=
  goesOn e = false → ∀ s' ∈ s.step e, ∀ i ∈ watched s.pc,
    (s'.client i).state = (s.client i).state
deriving Decidable

theorem Seen.step (h : s.Seen) (hundisturbed : s.Undisturbed e) (hstep : s.step e = some s') :
    s'.Seen := by
  cases he : goesOn e with
  | true => exact seen_of_uloop (uloop_of_step he hstep)
  | false =>
    have hsame := hundisturbed he s' hstep
    rcases pc_of_step he hstep with hpc | hnone
    · refine ⟨fun i hi => ?_, fun i hi => ?_⟩
      · have hseen := hpc.symm.trans hi
        exact (hsame i (by rw [hseen]; rfl)).trans (h.connected i hseen)
      · have hseen := hpc.symm.trans hi
        exact (hsame i (by rw [hseen]; rfl)).trans (h.bound i hseen)
    · exact seen_of_watched_none hnone

theorem seen_of_reachable (h : comm.ReachableUnder Undisturbed s) : s.Seen :=
  h.invariant (I := Seen) (seen_of_watched_none rfl)
    fun _ _ _ hseen hundisturbed hstep => hseen.step hundisturbed hstep

end Comm

/-- As long as nothing changes the state of a client between the read and the write of
`client_event_cb`, a client that is `FINALIZING` only becomes `DESTROY_PENDING`, and a client that
has been `BOUND` does not become unbound. -/
theorem client_life_cycle {s s' : Comm} {e : CommEvent}
    (h : comm.ReachableUnder Comm.Undisturbed s) (hstep : s.step e = some s') {i : ℕ}
    (hi : i < s.made) :
    ((s.client i).state = .finalizing →
      (s'.client i).state = .finalizing ∨ (s'.client i).state = .destroyPending) ∧
    ((s.client i).state = .destroyPending → (s'.client i).state = .destroyPending) ∧
    ((s.client i).state.isBound = true → (s'.client i).state.isBound = true) := by
  have hforward := (Comm.seen_of_reachable h).forward hstep hi
  exact ⟨hforward.finalizing, hforward.destroyPending, hforward.bound⟩

/-- The message that binds a client. -/
def hello : Frame := .message ⟨some 0, some Comm.controlNamespace, some "Hello", some "agent"⟩ none

/-- A client connects, says hello, becomes active, closes and is destroyed. -/
theorem client_life_cycle_whole :
    ∃ s s' : Comm, comm.ReachableUnder Comm.Undisturbed s ∧ s.step .uloop = some s' ∧
      (s.client 0).state = .finalizing ∧ (s'.client 0).state = .destroyPending ∧
      (s'.client 0).state.isBound = true := by
  obtain ⟨s, -, hs, hfinalizing, hmade, s', hs', hpending⟩ := System.exists_reachableUnder comm
    Comm.Undisturbed
    [.wsReady ⟨3232235779, 57622⟩ "u" "app" 1, .signal, .clientEvent, .uloop, .uloop,
      .wsData ⟨3232235779, 57622⟩ hello, .invokeDone 0 false, .signal, .clientEvent, .uloop, .uloop,
      .wsData ⟨3232235779, 57622⟩ .close, .signal, .clientEvent, .uloop]
    (fun s => (s.client 0).state = .finalizing ∧ 0 < s.made ∧
      ∃ s' ∈ s.step .uloop, (s'.client 0).state = .destroyPending)
    (by decide +kernel) (by decide +kernel)
  refine ⟨s, s', hs, hs', hfinalizing, hpending, ?_⟩
  exact (client_life_cycle hs hs' hmade).2.2 (by rw [hfinalizing]; rfl)

/-- A client says hello while `client_event_cb` sets up its timer, and is unbound again; or it
closes while `client_event_cb` makes it active, and is active again. -/
theorem client_goes_back :
    (∃ s s' : Comm, comm.Reachable s ∧ s.step .uloop = some s' ∧
      (s.client 0).state = .bound ∧ (s'.client 0).state = .waitBind) ∧
    ∃ s s' : Comm, comm.Reachable s ∧ s.step .uloop = some s' ∧
      (s.client 0).state = .finalizing ∧ (s'.client 0).state = .active := by
  obtain ⟨s, hs, s', hgone⟩ := System.exists_reachable comm
    [.wsReady ⟨3232235779, 57622⟩ "u" "app" 1, .signal, .clientEvent, .uloop,
      .wsData ⟨3232235779, 57622⟩ hello]
    (fun s => ∃ s' ∈ s.step .uloop, (s.client 0).state = .bound ∧ (s'.client 0).state = .waitBind)
    (by decide +kernel)
  obtain ⟨t, ht, t', hgone'⟩ := System.exists_reachable comm
    [.wsReady ⟨3232235779, 57622⟩ "u" "app" 1, .signal, .wsData ⟨3232235779, 57622⟩ hello,
      .clientEvent, .uloop, .wsData ⟨3232235779, 57622⟩ .close]
    (fun t => ∃ t' ∈ t.step .uloop,
      (t.client 0).state = .finalizing ∧ (t'.client 0).state = .active)
    (by decide +kernel)
  exact ⟨⟨s, s', hs, hgone⟩, t, t', ht, hgone'⟩

end BeepMusic.Castchat
